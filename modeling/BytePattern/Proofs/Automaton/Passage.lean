import BytePattern.Proofs.Automaton.Agreement
import BytePattern.Proofs.Automaton.Language
import BytePattern.Proofs.Automaton.Ownership

namespace BytePattern

/-!
# No state is left behind

Composing fragments redirects exits that were made long before, and one move too
few would cut off all that lies behind it.  No input need show this, as the words
that are lost may be read elsewhere.  It is therefore shown of the states
themselves that each of them lies on a path through its fragment.

For an operand this is a matter of two moves, one that leads to its entry and one
that leads on from its exit.  Between the two there is always a path, since there
is no expression that matches nothing.

An exit is the only state that is ever changed.  A state that no fragment on the
stack ends in is final, whatever else is assembled.
-/

namespace Automaton

/-- Some word leads from the one state to the other. -/
def Reaches (automaton : Automaton) (id target : StateId) : Prop :=
  exists word, automaton.Path id word target

/-- The state lies on a path through the fragment. -/
structure Passes (automaton : Automaton) (whole : Fragment) (id : StateId) : Prop where
  reached : automaton.Reaches whole.entry id
  leaves : automaton.Reaches id whole.exit

section Reaches

variable {automaton : Automaton} {id middle target : StateId}

theorem Reaches.refl (automaton : Automaton) (id : StateId) : automaton.Reaches id id :=
  ⟨[], .refl id⟩

theorem Reaches.trans (first : automaton.Reaches id middle)
    (second : automaton.Reaches middle target) : automaton.Reaches id target := by
  rcases first with ⟨front, before⟩
  rcases second with ⟨back, after⟩
  exact ⟨front ++ back, before.append after⟩

theorem Reaches.ofEpsilon {state : State} (found : automaton.state? id = some state)
    (member : target ∈ state.epsilons) : automaton.Reaches id target :=
  ⟨[], .epsilon found member (.refl target)⟩

variable {inner outer : Fragment}

/-- What lies on a path through an operand lies on one through the whole. -/
theorem Passes.widen (passes : automaton.Passes inner id)
    (enter : automaton.Reaches outer.entry inner.entry)
    (leave : automaton.Reaches inner.exit outer.exit) : automaton.Passes outer id where
  reached := enter.trans passes.reached
  leaves := passes.leaves.trans leave

theorem Passes.ofEnd (through : automaton.Reaches outer.entry outer.exit)
    (ends : id = outer.entry ∨ id = outer.exit) : automaton.Passes outer id := by
  rcases ends with atEntry | atExit
  · exact ⟨atEntry ▸ .refl _ _, atEntry ▸ through⟩
  · exact ⟨atExit ▸ through, atExit ▸ .refl _ _⟩

end Reaches

namespace Laid

variable {automaton : Automaton} {tree : Expression} {low high id : StateId} {whole : Fragment}

/-- Some path leads through the expression, since it matches some word. -/
theorem through (laid : Laid automaton tree low whole high) :
    automaton.Reaches whole.entry whole.exit := by
  rcases tree.exists_matches with ⟨word, found⟩
  exact ⟨word, laid.path_of_matches found⟩

/-- A new entry leads to the operand, and its exit leads past it. -/
private theorem passes_around {operand : Expression} {last : StateId} {inner : Fragment}
    {first back : List StateId} (laid : Laid automaton operand low inner last)
    (entered : automaton.state? last = some { epsilons := first })
    (left : automaton.state? inner.exit = some { epsilons := back })
    (enter : inner.entry ∈ first) (leave : last + 1 ∈ back)
    (inside : low <= id -> id < last -> automaton.Passes inner id)
    (fromLow : low <= id) (toHigh : id < last + 2) : automaton.Passes ⟨last, last + 1⟩ id := by
  have before : automaton.Reaches last inner.entry := .ofEpsilon entered enter
  have behind : automaton.Reaches inner.exit (last + 1) := .ofEpsilon left leave
  by_cases among : id < last
  · exact (inside fromLow among).widen before behind
  · exact .ofEnd (before.trans (laid.through.trans behind)) (by lia)

/-- Every state of the interval lies on a path through the expression. -/
theorem passes (laid : Laid automaton tree low whole high) (fromLow : low <= id)
    (toHigh : id < high) : automaton.Passes whole id := by
  induction laid with
  | @literal byte low entered =>
      exact .ofEnd (Laid.literal entered).through (by lia)
  | @concat left right low middle high front back leftLaid rightLaid joined leftIH rightIH =>
      have seam : automaton.Reaches front.exit back.entry := .ofEpsilon joined (by simp)
      by_cases inLeft : id < middle
      · exact (leftIH fromLow inLeft).widen (.refl _ _) (seam.trans rightLaid.through)
      · exact (rightIH (by lia) toHigh).widen (leftLaid.through.trans seam) (.refl _ _)
  | @alternate left right low middle last front back leftLaid rightLaid entered leftLeft rightLeft
      leftIH rightIH =>
      have rightBounds := rightLaid.bounds
      by_cases inLeft : id < middle
      · exact (leftIH fromLow inLeft).widen (.ofEpsilon entered (by simp))
          (.ofEpsilon leftLeft (by simp))
      · exact passes_around rightLaid entered rightLeft (by simp) (by simp) rightIH (by lia) toHigh
  | optional operand entered left ih | plus operand entered left ih | star operand entered left ih =>
      exact passes_around operand entered left (by simp) (by simp) ih fromLow toHigh

end Laid

/-- Every state lies on a path through some fragment of the stack. -/
theorem Stacked.exists_passes {automaton : Automaton} {forest : Forest}
    {fragments : List Fragment} {high id : StateId}
    (stacked : Stacked automaton forest fragments high) (inside : id < high) :
    exists whole, whole ∈ fragments ∧ automaton.Passes whole id := by
  induction stacked with
  | nil => contradiction
  | @cons _ _ last _ low _ _ laid _ ih =>
      by_cases before : id < low
      · rcases ih before with ⟨whole, member, passes⟩
        exact ⟨whole, List.mem_cons_of_mem _ member, passes⟩
      · exact ⟨last, List.mem_cons_self, laid.passes (Nat.not_lt.1 before) inside⟩

end Automaton

/-! ## States that are final -/

namespace Assembly

variable {assembly next built : Assembly} {position : Nat} {token : Token} {tokens : List Token}
  {id : StateId}

/-- The state exists, and no fragment on the stack ends in it. -/
structure Settled (assembly : Assembly) (id : StateId) : Prop where
  inside : id < assembly.automaton.size
  notExit : forall whole, whole ∈ assembly.fragments -> id ≠ whole.exit

namespace Settled

/-- A new fragment ends in a new state, or where one of its operands did. -/
private theorem stack {made : Automaton × Fragment} {below : List Fragment}
    (settled : assembly.Settled id) (apart : id ≠ made.2.exit) (sub : below ⊆ assembly.fragments)
    (kept : made.1.state? id = assembly.automaton.state? id) :
    (forall whole, whole ∈ (stack made below).fragments -> id ≠ whole.exit) ∧
      (Assembly.stack made below).automaton.state? id = assembly.automaton.state? id := by
  refine ⟨?_, kept⟩
  intro whole member
  rcases List.mem_cons.1 member with here | under
  · exact here ▸ apart
  · exact settled.notExit whole (sub under)

/-- An operator with one operand attaches to the exit of it. -/
private theorem around {automaton : Automaton} {inner : Fragment} {below : List Fragment}
    (settled : Settled ⟨automaton, inner :: below⟩ id) (first back : List StateId) :
    let made := (automaton.extend { epsilons := first }).continueAt inner.exit back
    (forall whole, whole ∈ (Assembly.stack (made, automaton.fresh) below).fragments ->
        id ≠ whole.exit) ∧
      made.state? id = automaton.state? id := by
  have inside : id < automaton.size := settled.inside
  refine settled.stack (Nat.ne_of_lt (Nat.lt_succ_of_lt inside)) (by simp) ?_
  exact Automaton.state?_continueAt_extend _ _ _ inside (settled.notExit inner List.mem_cons_self)

/-- Operators change nothing but the exits of their operands. -/
theorem reduce? {op : Operator} (settled : assembly.Settled id)
    (found : assembly.reduce? op = some next) :
    (forall whole, whole ∈ next.fragments -> id ≠ whole.exit) ∧
      next.automaton.state? id = assembly.automaton.state? id := by
  unfold Assembly.reduce? at found
  split at found
  · next automaton right left below =>
    cases found
    have apartLeft : id ≠ left.exit := settled.notExit left (by simp)
    refine settled.stack (settled.notExit right (by simp)) (by simp) ?_
    exact Automaton.state?_continueAt_of_ne _ _ apartLeft
  · next automaton right left below =>
    cases found
    have inside : id < automaton.size := settled.inside
    have apartLeft : id ≠ left.exit := settled.notExit left (by simp)
    have apartRight : id ≠ right.exit := settled.notExit right (by simp)
    refine settled.stack (Nat.ne_of_lt (Nat.lt_succ_of_lt inside)) (by simp) ?_
    exact (Automaton.state?_continueAt_of_ne _ _ apartRight).trans
      (Automaton.state?_continueAt_extend _ _ _ inside apartLeft)
  · cases found
    exact settled.around _ _
  · cases found
    exact settled.around _ _
  · cases found
    exact settled.around _ _
  · contradiction

theorem feed (settled : assembly.Settled id) (fed : assembly.feed position token = .ok next) :
    next.Settled id ∧ next.automaton.state? id = assembly.automaton.state? id := by
  have step : (forall whole, whole ∈ next.fragments -> id ≠ whole.exit) ∧
      next.automaton.state? id = assembly.automaton.state? id := by
    cases token with
    | literal byte =>
        cases fed
        exact settled.stack (Nat.ne_of_lt (Nat.lt_succ_of_lt settled.inside)) (List.Subset.refl _)
          (Automaton.state?_extend_of_lt _ _ settled.inside)
    | operator op =>
        rw [Assembly.feed] at fed
        split at fed
        · next reduced found =>
          cases fed
          exact settled.reduce? found
        · contradiction
    | parenthesis side => cases fed
  have inside : id < next.automaton.size := by
    rw [size_of_feed fed]
    exact Nat.lt_add_right _ settled.inside
  exact ⟨⟨inside, step.1⟩, step.2⟩

/-- What is final stays as it is. -/
theorem feedAll (settled : assembly.Settled id)
    (taken : assembly.feedAll position tokens = .ok built) :
    built.automaton.state? id = assembly.automaton.state? id := by
  induction tokens generalizing assembly position with
  | nil =>
      cases taken
      rfl
  | cons token rest ih =>
      rw [Assembly.feedAll] at taken
      split at taken
      · next next fed =>
        rcases settled.feed fed with ⟨settledNext, kept⟩
        exact (ih settledNext taken).trans kept
      · contradiction

end Settled

/-- The two states of a literal are the next ones to be made.  The first of them
reads the byte, whatever is assembled behind it. -/
theorem state?_fresh_of_feedAll {front back : List Token} {byte : UInt8}
    (before : feedAll {} 0 front = .ok assembly)
    (taken : feedAll {} 0 (front ++ .literal byte :: back) = .ok built) :
    built.automaton.state? assembly.automaton.fresh.entry =
        some { edges := [(byte, assembly.automaton.fresh.exit)] } ∧
      assembly.automaton.fresh.exit < built.automaton.size := by
  rw [feedAll_append, before] at taken
  let fed := stack (assembly.automaton.literal byte) assembly.fragments
  have rest : fed.feedAll (0 + front.length + 1) back = .ok built := taken
  have size : fed.automaton.size = assembly.automaton.size + 2 := Automaton.size_extend _ _
  have notExit : forall whole, whole ∈ fed.fragments -> assembly.automaton.size ≠ whole.exit := by
    intro whole member
    rcases List.mem_cons.1 member with here | below
    · exact here ▸ Nat.ne_of_lt (Nat.lt_succ_self _)
    · exact Nat.ne_of_gt (within_of_feedAll before whole below).2
  have settled : fed.Settled assembly.automaton.size := ⟨by lia, notExit⟩
  constructor
  · exact (settled.feedAll rest).trans (Automaton.state?_entry_extend _ _)
  · rw [size_of_feedAll rest, size]
    exact Nat.lt_add_right _ (Nat.lt_succ_self _)

end Assembly

/-! ## Finished automata -/

namespace Recognizer

/-- Every state can be reached from the entry and can reach the exit. -/
def Trim (recognizer : Recognizer) : Prop :=
  forall id, id < recognizer.automaton.size -> recognizer.automaton.Passes recognizer.root id

/-- Some path through the automaton spells the input, and on its way it reads the
byte from the entry of the given part to its exit. -/
def Consumes (recognizer : Recognizer) (part : Fragment) (byte : UInt8) (input : List UInt8) : Prop :=
  exists before after, input = before ++ byte :: after ∧
    recognizer.automaton.Path recognizer.root.entry before part.entry ∧
    recognizer.automaton.state? part.entry = some { edges := [(byte, part.exit)] } ∧
    recognizer.automaton.Path part.exit after recognizer.root.exit

variable {tokens : List Token} {recognizer : Recognizer}

theorem trim_void : void.Trim := by
  intro id inside
  have size : void.automaton.size = 2 := rfl
  have through : void.automaton.Reaches void.root.entry void.root.exit :=
    .ofEpsilon rfl (List.mem_singleton.2 rfl)
  have ends : id = 0 ∨ id = 1 := by lia
  exact .ofEnd through ends

theorem trim_of_assemble (assembled : assemble tokens = .ok recognizer) : recognizer.Trim := by
  rcases realizes_of_assemble assembled with ⟨_, same⟩ | ⟨tree, _, realizes⟩
  · exact same ▸ trim_void
  · exact fun _ inside => realizes.laid.passes (Nat.zero_le _) inside

theorem Consumes.path {part : Fragment} {byte : UInt8} {input : List UInt8}
    (consumes : recognizer.Consumes part byte input) :
    recognizer.automaton.Path recognizer.root.entry input recognizer.root.exit := by
  rcases consumes with ⟨before, after, split, first, found, last⟩
  have reads : ({ edges := [(byte, part.exit)] } : State).next? byte = some part.exit :=
    State.next?_single_eq_some_iff.2 ⟨rfl, rfl⟩
  exact split ▸ first.append (.edge found reads last)

/-- The part of a literal lies on a path, and the only way through it is to read
the byte. -/
theorem exists_consumes_of_assemble {front back : List Token} {byte : UInt8}
    (assembled : assemble (front ++ .literal byte :: back) = .ok recognizer) :
    exists assembly input, Assembly.feedAll {} 0 front = .ok assembly ∧
      recognizer.Consumes assembly.automaton.fresh byte input := by
  rcases exists_feedAll_of_assemble assembled with ⟨assembly, before⟩
  have taken := feedAll_of_assemble assembled (by simp)
  rcases Assembly.state?_fresh_of_feedAll before taken with ⟨found, inside⟩
  have trim := trim_of_assemble assembled
  rcases (trim _ (Automaton.lt_size_of_state? found)).reached with ⟨first, path⟩
  rcases (trim _ inside).leaves with ⟨last, onward⟩
  exact ⟨assembly, first ++ byte :: last, before, first, last, rfl, path, found, onward⟩

end Recognizer
end BytePattern
