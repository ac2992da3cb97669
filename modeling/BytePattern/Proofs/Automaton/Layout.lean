import BytePattern.Automaton.Basic
import BytePattern.Proofs.Postorder.Forest

namespace BytePattern

/-!
# The layout of an assembled automaton

Assembling changes states that were made long before: the exit of an operand is
continued when an operator takes it.  Everything else about a finished operand
is final, and its states are neighbours, since the fragments on the stack are
made one after the other.  An expression is therefore laid out in an interval
of states, of which only the exit is still open.

`Laid` says what these states are, with the exit left out.  It is preserved by
whatever happens outside the interval or at the exit, so one operator is one
constructor, and every property of an assembled automaton is an induction over
the expression in a single automaton that no longer changes.
-/

/-! ## States that keep to an interval -/

namespace State

/-- All states that one move can lead to. -/
def targets (state : State) : List StateId :=
  state.edges.map Prod.snd ++ state.epsilons

/-- An inner state of a fragment.  It does not accept, it either reads one byte
or moves without reading, and no move leaves the interval or goes back to the
entry of the fragment. -/
structure Confined (low high entry : StateId) (state : State) : Prop where
  silent : state.terminal = false
  single : (exists edge, state.edges = [edge] ∧ state.epsilons = []) ∨
    (state.edges = [] ∧ state.epsilons.length <= 2)
  inside : forall target, target ∈ state.targets ->
    low <= target ∧ target < high ∧ target ≠ entry

namespace Confined

variable {low high entry : StateId} {state : State}

/-- A fragment in a larger one: its targets lie in its own interval, where the
entry of the larger one is not a target. -/
theorem widen {outerLow outerHigh outerEntry : StateId} (confined : Confined low high entry state)
    (below : outerLow <= low) (above : high <= outerHigh)
    (apart : outerEntry = entry ∨ outerEntry < low ∨ high <= outerEntry) :
    Confined outerLow outerHigh outerEntry state where
  silent := confined.silent
  single := confined.single
  inside := by
    intro target member
    have kept := confined.inside target member
    lia

/-- A state that something was attached to. -/
theorem ofEpsilons {targets : List StateId} (few : targets.length <= 2)
    (inside : forall target, target ∈ targets -> low <= target ∧ target < high ∧ target ≠ entry) :
    Confined low high entry { epsilons := targets } where
  silent := rfl
  single := Or.inr ⟨rfl, few⟩
  inside := inside

/-- A state that can read a byte has no other move. -/
theorem epsilons_eq_nil (confined : Confined low high entry state) {byte : UInt8}
    {target : StateId} (reads : state.next? byte = some target) : state.epsilons = [] := by
  rcases confined.single with ⟨_, _, none⟩ | ⟨none, _⟩
  · exact none
  · rw [next?, none] at reads
    contradiction

end Confined

theorem next?_single_eq_some_iff {byte read : UInt8} {target reached : StateId} :
    ({ edges := [(byte, target)] } : State).next? read = some reached <->
      read = byte ∧ reached = target := by
  by_cases same : read = byte
  · simp [next?, same, eq_comm]
  · have differs : (read == byte) = false := beq_eq_false_iff_ne.2 same
    simp [next?, List.lookup_cons, differs, same]

theorem mem_targets_of_epsilon {state : State} {target : StateId}
    (member : target ∈ state.epsilons) : target ∈ state.targets :=
  List.mem_append_right _ member

theorem mem_edges_of_next? {state : State} {byte : UInt8} {target : StateId}
    (reads : state.next? byte = some target) : (byte, target) ∈ state.edges := by
  rcases List.lookup_eq_some_iff.1 reads with ⟨before, after, split, _⟩
  rw [split]
  exact List.mem_append_right _ (List.mem_cons_self)

theorem mem_targets_of_next? {state : State} {byte : UInt8} {target : StateId}
    (reads : state.next? byte = some target) : target ∈ state.targets :=
  List.mem_append_left _ (List.mem_map.2 ⟨(byte, target), mem_edges_of_next? reads, rfl⟩)

end State

namespace Automaton

theorem state?_continueAt_of_ne (automaton : Automaton) (targets : List StateId)
    {id other : StateId} (apart : other ≠ id) :
    (automaton.continueAt id targets).state? other = automaton.state? other := by
  rw [state?_continueAt, if_neg (Ne.symm apart)]

/-- An exit that is continued has the attached moves and no others. -/
theorem state?_continueAt_of_exit {automaton : Automaton} {id : StateId}
    (exit : automaton.state? id = some { terminal := true }) (targets : List StateId) :
    (automaton.continueAt id targets).state? id = some { epsilons := targets } := by
  rw [state?_continueAt, if_pos rfl, exit]
  rfl

/-- An old state is the same behind a new part, if nothing is attached to it. -/
theorem state?_continueAt_extend (automaton : Automaton) (entry : State) (targets : List StateId)
    {id exit : StateId} (old : id < automaton.size) (apart : id ≠ exit) :
    ((automaton.extend entry).continueAt exit targets).state? id = automaton.state? id := by
  rw [state?_continueAt_of_ne _ _ apart, state?_extend_of_lt _ _ old]

theorem lt_size_of_state? {automaton : Automaton} {id : StateId} {state : State}
    (found : automaton.state? id = some state) : id < automaton.size :=
  (Array.getElem?_eq_some_iff.1 found).1

/-- A state that can read some byte has no move without reading. -/
def Unmixed (automaton : Automaton) : Prop :=
  forall id state byte target, automaton.state? id = some state ->
    state.next? byte = some target -> state.epsilons = []

/-! ## Expressions in an automaton -/

/-- The states from `low` on, and before `high`, hold the given expression, which
is entered and left by the given fragment.  Nothing is said about the state at
the exit. -/
inductive Laid (automaton : Automaton) :
    Expression -> StateId -> Fragment -> StateId -> Prop where
  | literal {byte : UInt8} {low : StateId} :
      automaton.state? low = some { edges := [(byte, low + 1)] } ->
        Laid automaton (.literal byte) low ⟨low, low + 1⟩ (low + 2)
  | concat {left right : Expression} {low middle high : StateId} {front back : Fragment} :
      Laid automaton left low front middle -> Laid automaton right middle back high ->
      automaton.state? front.exit = some { epsilons := [back.entry] } ->
        Laid automaton (.concat left right) low ⟨front.entry, back.exit⟩ high
  | alternate {left right : Expression} {low middle last : StateId} {front back : Fragment} :
      Laid automaton left low front middle -> Laid automaton right middle back last ->
      automaton.state? last = some { epsilons := [front.entry, back.entry] } ->
      automaton.state? front.exit = some { epsilons := [last + 1] } ->
      automaton.state? back.exit = some { epsilons := [last + 1] } ->
        Laid automaton (.alternate left right) low ⟨last, last + 1⟩ (last + 2)
  | optional {operand : Expression} {low last : StateId} {inner : Fragment} :
      Laid automaton operand low inner last ->
      automaton.state? last = some { epsilons := [last + 1, inner.entry] } ->
      automaton.state? inner.exit = some { epsilons := [last + 1] } ->
        Laid automaton (.optional operand) low ⟨last, last + 1⟩ (last + 2)
  | plus {operand : Expression} {low last : StateId} {inner : Fragment} :
      Laid automaton operand low inner last ->
      automaton.state? last = some { epsilons := [inner.entry] } ->
      automaton.state? inner.exit = some { epsilons := [inner.entry, last + 1] } ->
        Laid automaton (.plus operand) low ⟨last, last + 1⟩ (last + 2)
  | star {operand : Expression} {low last : StateId} {inner : Fragment} :
      Laid automaton operand low inner last ->
      automaton.state? last = some { epsilons := [inner.entry, last + 1] } ->
      automaton.state? inner.exit = some { epsilons := [inner.entry, last + 1] } ->
        Laid automaton (.star operand) low ⟨last, last + 1⟩ (last + 2)

namespace Laid

variable {automaton other : Automaton} {tree : Expression} {low high : StateId} {whole : Fragment}

/-- Entry and exit are two different states of the interval. -/
theorem bounds (laid : Laid automaton tree low whole high) :
    low <= whole.entry ∧ whole.entry < high ∧ low <= whole.exit ∧ whole.exit < high ∧
      whole.entry ≠ whole.exit := by
  induction laid with
  | literal _ => exact ⟨Nat.le_refl _, by lia, by lia, by lia, by simp⟩
  | concat _ _ _ leftIH rightIH =>
      dsimp only at leftIH rightIH ⊢
      lia
  | alternate _ _ _ _ _ leftIH rightIH =>
      dsimp only at leftIH rightIH ⊢
      lia
  | optional _ _ _ ih | plus _ _ _ ih | star _ _ _ ih =>
      dsimp only at ih ⊢
      lia

/-- What happens at other states, or at the exit, does not concern an
expression that is laid out. -/
theorem congr (laid : Laid automaton tree low whole high)
    (agree : forall id, low <= id -> id < high -> id ≠ whole.exit ->
      other.state? id = automaton.state? id) : Laid other tree low whole high := by
  induction laid with
  | literal entered => exact .literal ((agree _ (by lia) (by lia) (by lia)).trans entered)
  | concat left right joined leftIH rightIH =>
      have leftBounds := left.bounds
      have rightBounds := right.bounds
      dsimp only at agree
      refine .concat (leftIH ?_) (rightIH ?_) ?_
      · intro id fromLow toHigh _
        exact agree id fromLow (by lia) (by lia)
      · intro id fromLow toHigh apart
        exact agree id (by lia) toHigh apart
      · exact (agree _ (by lia) (by lia) (by lia)).trans joined
  | alternate left right entered leftLeft rightLeft leftIH rightIH =>
      have leftBounds := left.bounds
      have rightBounds := right.bounds
      dsimp only at agree
      refine .alternate (leftIH ?_) (rightIH ?_) ?_ ?_ ?_
      · intro id fromLow toHigh _
        exact agree id fromLow (by lia) (by lia)
      · intro id fromLow toHigh _
        exact agree id (by lia) (by lia) (by lia)
      · exact (agree _ (by lia) (by lia) (by lia)).trans entered
      · exact (agree _ (by lia) (by lia) (by lia)).trans leftLeft
      · exact (agree _ (by lia) (by lia) (by lia)).trans rightLeft
  | optional operand entered left ih | plus operand entered left ih | star operand entered left ih =>
      have bounds := operand.bounds
      constructor
      · exact ih fun id fromLow toHigh _ => agree id fromLow (by lia) (by lia)
      · exact (agree _ (by lia) (by lia) (by lia)).trans entered
      · exact (agree _ (by lia) (by lia) (by lia)).trans left

/-- A repetition adds an entry, and attaches to the exit of its operand.  Both
states lead to the operand or past it. -/
private theorem confined_around {operand : Expression} {last id : StateId} {inner : Fragment}
    {first back : List StateId} (laid : Laid automaton operand low inner last)
    (entered : automaton.state? last = some { epsilons := first })
    (left : automaton.state? inner.exit = some { epsilons := back })
    (firstFew : first.length <= 2) (backFew : back.length <= 2)
    (ends : forall target, target ∈ first ∨ target ∈ back ->
      target = inner.entry ∨ target = last + 1)
    (inside : low <= id -> id < last -> id ≠ inner.exit ->
      exists state, automaton.state? id = some state ∧ state.Confined low last inner.entry)
    (fromLow : low <= id) (toHigh : id < last + 2) (apart : id ≠ last + 1) :
    exists state, automaton.state? id = some state ∧ state.Confined low (last + 2) last := by
  have bounds := laid.bounds
  by_cases atEntry : id = last
  · subst atEntry
    refine ⟨_, entered, .ofEpsilons firstFew ?_⟩
    intro target member
    have reached := ends target (Or.inl member)
    lia
  · by_cases atExit : id = inner.exit
    · subst atExit
      refine ⟨_, left, .ofEpsilons backFew ?_⟩
      intro target member
      have reached := ends target (Or.inr member)
      lia
    · rcases inside fromLow (by lia) atExit with ⟨state, found, confined⟩
      exact ⟨state, found, confined.widen (by lia) (by lia) (by lia)⟩

/-- The states of the interval, the exit apart, are inner states. -/
theorem confined (laid : Laid automaton tree low whole high) {id : StateId}
    (fromLow : low <= id) (toHigh : id < high) (apart : id ≠ whole.exit) :
    exists state, automaton.state? id = some state ∧
      state.Confined low high whole.entry := by
  induction laid generalizing id with
  | @literal byte low entered =>
      have only : id = low := by lia
      subst only
      refine ⟨_, entered, rfl, Or.inl ⟨_, rfl, rfl⟩, ?_⟩
      intro target member
      have reached : target = id + 1 := by simpa [State.targets] using member
      lia
  | @concat left right low middle high front back leftLaid rightLaid joined leftIH rightIH =>
      have leftBounds := leftLaid.bounds
      have rightBounds := rightLaid.bounds
      dsimp only at apart ⊢
      by_cases inLeft : id < middle
      · by_cases seam : id = front.exit
        · subst seam
          refine ⟨_, joined, .ofEpsilons (by simp) ?_⟩
          intro target member
          have reached : target = back.entry := by simpa using member
          lia
        · rcases leftIH fromLow inLeft seam with ⟨state, found, confined⟩
          exact ⟨state, found, confined.widen (by lia) (by lia) (by lia)⟩
      · rcases rightIH (by lia) toHigh apart with ⟨state, found, confined⟩
        exact ⟨state, found, confined.widen (by lia) (by lia) (by lia)⟩
  | @alternate left right low middle last front back leftLaid rightLaid entered leftLeft rightLeft
      leftIH rightIH =>
      have leftBounds := leftLaid.bounds
      have rightBounds := rightLaid.bounds
      dsimp only at apart ⊢
      have through : State.Confined low (last + 2) last { epsilons := [last + 1] } := by
        refine .ofEpsilons (by simp) ?_
        intro target member
        have reached : target = last + 1 := by simpa using member
        lia
      by_cases atEntry : id = last
      · subst atEntry
        refine ⟨_, entered, .ofEpsilons (by simp) ?_⟩
        intro target member
        have reached : target = front.entry ∨ target = back.entry := by simpa using member
        lia
      · by_cases inLeft : id < middle
        · by_cases atExit : id = front.exit
          · exact ⟨_, atExit ▸ leftLeft, through⟩
          · rcases leftIH fromLow inLeft atExit with ⟨state, found, confined⟩
            exact ⟨state, found, confined.widen (by lia) (by lia) (by lia)⟩
        · by_cases atExit : id = back.exit
          · exact ⟨_, atExit ▸ rightLeft, through⟩
          · rcases rightIH (by lia) (by lia) atExit with ⟨state, found, confined⟩
            exact ⟨state, found, confined.widen (by lia) (by lia) (by lia)⟩
  | optional operand entered left ih =>
      exact confined_around operand entered left (by simp) (by simp) (by grind) ih
        fromLow toHigh apart
  | plus operand entered left ih | star operand entered left ih =>
      exact confined_around operand entered left (by simp) (by simp) (by grind) ih
        fromLow toHigh apart

end Laid

/-! ## Fragments side by side -/

/-- The trees of a row are laid out one after the other, from state zero up to
the given state, by the fragments of a stack.  Their exits are untouched. -/
inductive Stacked (automaton : Automaton) : Forest -> List Fragment -> StateId -> Prop where
  | nil : Stacked automaton [] [] 0
  | cons {tree : Expression} {forest : Forest} {whole : Fragment} {fragments : List Fragment}
      {low high : StateId} :
      Stacked automaton forest fragments low -> Laid automaton tree low whole high ->
      automaton.state? whole.exit = some { terminal := true } ->
        Stacked automaton (tree :: forest) (whole :: fragments) high

namespace Stacked

variable {automaton other : Automaton} {forest : Forest} {fragments : List Fragment}
  {high : StateId}

theorem congr (stacked : Stacked automaton forest fragments high)
    (agree : forall id, id < high -> other.state? id = automaton.state? id) :
    Stacked other forest fragments high := by
  induction stacked with
  | nil => exact .nil
  | cons below laid exit ih =>
      have bounds := laid.bounds
      refine .cons (ih ?_) (laid.congr ?_) ?_
      · intro id toLow
        exact agree id (by lia)
      · intro id _ toHigh _
        exact agree id toHigh
      · exact (agree _ (by lia)).trans exit

theorem length_eq (stacked : Stacked automaton forest fragments high) :
    fragments.length = forest.length := by
  induction stacked with
  | nil => rfl
  | cons _ _ _ ih => rw [List.length_cons, List.length_cons, ih]

theorem lt_of_mem (stacked : Stacked automaton forest fragments high) {whole : Fragment}
    (member : whole ∈ fragments) : whole.entry < high ∧ whole.exit < high := by
  induction stacked with
  | nil => contradiction
  | cons _ laid _ ih =>
      have bounds := laid.bounds
      rcases List.mem_cons.1 member with here | below
      · rw [here]
        exact ⟨bounds.2.1, bounds.2.2.2.1⟩
      · have smaller := ih below
        lia

/-- An operator with one operand adds an entry and an exit around it, and
attaches targets to its exit. -/
theorem around {operand : Expression} {inner : Fragment} (first back : List StateId)
    (stacked : Stacked automaton (operand :: forest) (inner :: fragments) automaton.size) :
    let made := (automaton.extend { epsilons := first }).continueAt inner.exit back
    exists low, Stacked made forest fragments low ∧
      Laid made operand low inner automaton.size ∧
      made.state? automaton.size = some { epsilons := first } ∧
      made.state? inner.exit = some { epsilons := back } ∧
      made.state? (automaton.size + 1) = some { terminal := true } := by
  cases stacked with
  | @cons _ _ _ _ low _ below laid exit =>
      have bounds := laid.bounds
      have old : forall id, id < automaton.size -> id ≠ inner.exit ->
          ((automaton.extend { epsilons := first }).continueAt inner.exit back).state? id =
            automaton.state? id :=
        fun _ before apart => state?_continueAt_extend _ _ _ before apart
      refine ⟨low, below.congr ?_, laid.congr ?_, ?_, ?_, ?_⟩
      · intro id toLow
        exact old id (by lia) (by lia)
      · intro id _ toHigh apart
        exact old id toHigh apart
      · rw [state?_continueAt_of_ne _ _ (by lia)]
        exact state?_entry_extend automaton _
      · apply state?_continueAt_of_exit
        rw [state?_extend_of_lt _ _ (by lia), exit]
      · rw [state?_continueAt_of_ne _ _ (by lia)]
        exact state?_exit_extend automaton _

end Stacked
end Automaton
end BytePattern
