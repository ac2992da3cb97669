import BytePattern.Automaton.Assembly
import BytePattern.Proofs.Automaton.Layout

namespace BytePattern

/-!
# What an assembly constructs

The fragments on the stack of an assembly hold the trees that have been read so
far, one beside the other.  Every token keeps this true: a literal puts a tree on
top of the row, and an operator joins the fragments of the trees that it joins.
Where the row lacks an operand, the stack lacks a fragment, and so assembling
fails exactly where reading does.

A finished automaton thus holds one expression, or it is the automaton of the
empty list.  The two have in common that every state but the exit is an inner
state, which is all that a search asks of them.
-/

namespace Assembly

open Automaton

/-- An assembly whose fragments hold the trees of a row, and nothing else. -/
def Holds (assembly : Assembly) (forest : Forest) : Prop :=
  Stacked assembly.automaton forest assembly.fragments assembly.automaton.size

theorem holds_empty : Holds {} [] := Stacked.nil

theorem reduce?_eq_none_iff (assembly : Assembly) (op : Operator) :
    assembly.reduce? op = none <-> assembly.fragments.length < op.arity := by
  rcases assembly with ⟨automaton, _ | ⟨last, _ | ⟨previous, below⟩⟩⟩ <;> cases op <;>
    simp [Assembly.reduce?, Operator.arity]

namespace Holds

variable {automaton : Automaton} {forest : Forest} {fragments : List Fragment}
  {left right operand : Expression} {front back inner : Fragment}

/-- A fragment that was made last lies behind all others. -/
private theorem ofLaid {made : Automaton × Fragment} {tree : Expression} {low high : StateId}
    (below : Stacked made.1 forest fragments low) (laid : Laid made.1 tree low made.2 high)
    (exit : made.1.state? made.2.exit = some { terminal := true }) (size : made.1.size = high) :
    (stack made fragments).Holds (tree :: forest) := by
  subst size
  exact .cons below laid exit

theorem literal (holds : Holds ⟨automaton, fragments⟩ forest) (byte : UInt8) :
    (stack (automaton.literal byte) fragments).Holds (.literal byte :: forest) := by
  have below : Stacked (automaton.literal byte).1 forest fragments automaton.size :=
    Stacked.congr holds fun id old => state?_extend_of_lt _ _ old
  refine ofLaid below (.literal ?_) ?_ (size_extend _ _)
  · exact state?_entry_extend automaton _
  · exact state?_exit_extend automaton _

theorem concatenate (holds : Holds ⟨automaton, back :: front :: fragments⟩ (right :: left :: forest)) :
    (stack (automaton.concatenate front back) fragments).Holds (.concat left right :: forest) := by
  rcases holds with _ | ⟨_ | ⟨below, leftLaid, leftExit⟩, rightLaid, rightExit⟩
  have leftBounds := leftLaid.bounds
  have rightBounds := rightLaid.bounds
  have old : forall id, id ≠ front.exit ->
      (automaton.concatenate front back).1.state? id = automaton.state? id :=
    fun id apart => state?_continueAt_of_ne _ _ apart
  refine ofLaid (below.congr ?_) (.concat (leftLaid.congr ?_) (rightLaid.congr ?_) ?_) ?_
    (size_continueAt _ _ _)
  · intro id toLow
    exact old id (by lia)
  · intro id _ _ apart
    exact old id apart
  · intro id fromLow _ _
    exact old id (by lia)
  · exact state?_continueAt_of_exit leftExit _
  · exact (old back.exit (by lia)).trans rightExit

theorem alternate (holds : Holds ⟨automaton, back :: front :: fragments⟩ (right :: left :: forest)) :
    (stack (automaton.alternate front back) fragments).Holds (.alternate left right :: forest) := by
  rcases holds with _ | ⟨_ | ⟨below, leftLaid, leftExit⟩, rightLaid, rightExit⟩
  have leftBounds := leftLaid.bounds
  have rightBounds := rightLaid.bounds
  have added : forall id, id ≠ front.exit -> id ≠ back.exit ->
      (automaton.alternate front back).1.state? id =
        (automaton.extend { epsilons := [front.entry, back.entry] }).state? id := by
    intro id apartLeft apartRight
    exact (state?_continueAt_of_ne _ _ apartRight).trans (state?_continueAt_of_ne _ _ apartLeft)
  have old : forall id, id < automaton.size -> id ≠ front.exit -> id ≠ back.exit ->
      (automaton.alternate front back).1.state? id = automaton.state? id := by
    intro id before apartLeft apartRight
    exact (added id apartLeft apartRight).trans (state?_extend_of_lt _ _ before)
  refine ofLaid (below.congr ?_) (.alternate (leftLaid.congr ?_) (rightLaid.congr ?_) ?_ ?_ ?_) ?_
    ((size_continueAt _ _ _).trans ((size_continueAt _ _ _).trans (size_extend _ _)))
  · intro id toLow
    exact old id (by lia) (by lia) (by lia)
  · intro id _ toHigh apart
    exact old id (by lia) apart (by lia)
  · intro id fromLow toHigh apart
    exact old id (by lia) (by lia) apart
  · exact (added automaton.size (by lia) (by lia)).trans (state?_entry_extend automaton _)
  · refine (state?_continueAt_of_ne _ _ (by lia)).trans (state?_continueAt_of_exit ?_ _)
    exact (state?_extend_of_lt _ _ (by lia)).trans leftExit
  · refine state?_continueAt_of_exit ?_ _
    rw [state?_continueAt_of_ne _ _ (by lia)]
    exact (state?_extend_of_lt _ _ (by lia)).trans rightExit
  · exact (added (automaton.size + 1) (by lia) (by lia)).trans (state?_exit_extend automaton _)

theorem optional (holds : Holds ⟨automaton, inner :: fragments⟩ (operand :: forest)) :
    (stack (automaton.optional inner) fragments).Holds (.optional operand :: forest) := by
  rcases Stacked.around _ _ holds with ⟨low, below, laid, entered, left, exit⟩
  exact ofLaid below (.optional laid entered left) exit
    ((size_continueAt _ _ _).trans (size_extend _ _))

theorem plus (holds : Holds ⟨automaton, inner :: fragments⟩ (operand :: forest)) :
    (stack (automaton.plus inner) fragments).Holds (.plus operand :: forest) := by
  rcases Stacked.around _ _ holds with ⟨low, below, laid, entered, left, exit⟩
  exact ofLaid below (.plus laid entered left) exit
    ((size_continueAt _ _ _).trans (size_extend _ _))

theorem star (holds : Holds ⟨automaton, inner :: fragments⟩ (operand :: forest)) :
    (stack (automaton.star inner) fragments).Holds (.star operand :: forest) := by
  rcases Stacked.around _ _ holds with ⟨low, below, laid, entered, left, exit⟩
  exact ofLaid below (.star laid entered left) exit
    ((size_continueAt _ _ _).trans (size_extend _ _))

/-- An operator that finds its trees also finds their fragments, and combines
them in the same way. -/
theorem reduce? {assembly : Assembly} {reduced : Forest} {op : Operator}
    (holds : assembly.Holds forest) (joined : Forest.Joined op forest reduced) :
    exists next, assembly.reduce? op = some next ∧ next.Holds reduced := by
  rcases assembly with ⟨automaton, fragments⟩
  have sameLength : fragments.length = forest.length := Stacked.length_eq holds
  cases joined with
  | concat left right below =>
      rcases fragments with _ | ⟨back, _ | ⟨front, rest⟩⟩
      · contradiction
      · contradiction
      · exact ⟨_, rfl, holds.concatenate⟩
  | alternate left right below =>
      rcases fragments with _ | ⟨back, _ | ⟨front, rest⟩⟩
      · contradiction
      · contradiction
      · exact ⟨_, rfl, holds.alternate⟩
  | optional operand below =>
      rcases fragments with _ | ⟨inner, rest⟩
      · contradiction
      · exact ⟨_, rfl, holds.optional⟩
  | plus operand below =>
      rcases fragments with _ | ⟨inner, rest⟩
      · contradiction
      · exact ⟨_, rfl, holds.plus⟩
  | star operand below =>
      rcases fragments with _ | ⟨inner, rest⟩
      · contradiction
      · exact ⟨_, rfl, holds.star⟩

/-- An assembly takes the tokens that a row of trees can read, and holds the row
that is read.  It fails where reading fails, for the same reason. -/
theorem feedAll {assembly : Assembly} (holds : assembly.Holds forest) (position : Nat)
    (tokens : List Token) :
    match forest.read position tokens with
    | .ok last => exists built, assembly.feedAll position tokens = .ok built ∧ built.Holds last
    | .error fault => assembly.feedAll position tokens = .error fault := by
  induction tokens generalizing assembly forest position with
  | nil => exact ⟨assembly, rfl, holds⟩
  | cons token rest ih =>
      cases token with
      | literal byte => exact ih (holds.literal byte) (position + 1)
      | operator op =>
          simp only [Forest.read, Assembly.feedAll, feed]
          cases reading : forest.reduce? op with
          | none =>
              have short := (Forest.reduce?_eq_none_iff forest op).1 reading
              rw [← Stacked.length_eq holds] at short
              rw [(reduce?_eq_none_iff assembly op).2 short]
          | some reduced =>
              rcases holds.reduce? (Forest.joined_of_reduce? reading) with ⟨next, found, nextHolds⟩
              rw [found]
              exact ih nextHolds (position + 1)
      | parenthesis side => rfl

end Holds

/-- Every fragment on the stack begins and ends in states that exist. -/
def Within (assembly : Assembly) : Prop :=
  forall whole, whole ∈ assembly.fragments ->
    whole.entry < assembly.automaton.size ∧ whole.exit < assembly.automaton.size

theorem Holds.within {assembly : Assembly} {forest : Forest} (holds : assembly.Holds forest) :
    assembly.Within :=
  fun _ member => Stacked.lt_of_mem holds member

/-- What was taken spells a row of trees, and the fragments hold that row. -/
theorem exists_holds_of_feedAll {tokens : List Token} {built : Assembly}
    (taken : feedAll {} 0 tokens = .ok built) :
    exists forest : Forest, forest.postorder = tokens ∧ built.Holds forest := by
  have fed := holds_empty.feedAll 0 tokens
  cases outcome : Forest.read [] 0 tokens with
  | error fault =>
      rw [outcome] at fed
      rw [fed] at taken
      contradiction
  | ok last =>
      rw [outcome] at fed
      rcases fed with ⟨own, found, holds⟩
      rw [found] at taken
      cases taken
      exact ⟨last, Forest.postorder_of_read outcome, holds⟩

theorem within_of_feedAll {tokens : List Token} {built : Assembly}
    (taken : feedAll {} 0 tokens = .ok built) : built.Within := by
  rcases exists_holds_of_feedAll taken with ⟨_, _, holds⟩
  exact holds.within

end Assembly

/-! ## Finished automata -/

namespace Recognizer

/-- The automaton holds the expression and nothing else, and its exit is free. -/
structure Realizes (recognizer : Recognizer) (tree : Expression) : Prop where
  laid : recognizer.automaton.Laid tree 0 recognizer.root recognizer.automaton.size
  exit : recognizer.automaton.state? recognizer.root.exit = some { terminal := true }

/-- The automaton of the empty list. -/
def void : Recognizer :=
  { automaton := Automaton.empty.void.1, root := Automaton.empty.void.2 }

theorem assemble_nil : assemble [] = .ok void := rfl

/-- What the row of trees says about the assembled automaton. -/
private theorem assemble_of_read {tokens : List Token} {last : Forest}
    (succeeded : Forest.read [] 0 tokens = .ok last) :
    exists built : Assembly, assemble tokens = built.finish ∧ built.Holds last := by
  have fed := Assembly.holds_empty.feedAll 0 tokens
  rw [succeeded] at fed
  rcases fed with ⟨built, found, holds⟩
  exact ⟨built, by rw [assemble, found], holds⟩

/-- The postorder of an expression is always assembled, to an automaton that
holds the expression. -/
theorem assemble_postorder (tree : Expression) :
    exists recognizer, assemble tree.postorder = .ok recognizer ∧ recognizer.Realizes tree := by
  rcases assemble_of_read (Forest.read_postorder tree 0) with ⟨⟨automaton, fragments⟩, found, holds⟩
  rcases holds with _ | ⟨_ | _, laid, exit⟩
  exact ⟨⟨automaton, _⟩, found, laid, exit⟩

/-- Nothing else is assembled than the empty list and postorders. -/
theorem realizes_of_assemble {tokens : List Token} {recognizer : Recognizer}
    (assembled : assemble tokens = .ok recognizer) :
    (tokens = [] ∧ recognizer = void) ∨
      exists tree : Expression, tree.postorder = tokens ∧ recognizer.Realizes tree := by
  have fed := Assembly.holds_empty.feedAll 0 tokens
  cases outcome : Forest.read [] 0 tokens with
  | error fault =>
      rw [outcome] at fed
      rw [assemble, fed] at assembled
      contradiction
  | ok last =>
      have spelled := Forest.postorder_of_read outcome
      rcases assemble_of_read outcome with ⟨⟨automaton, fragments⟩, found, holds⟩
      rw [found] at assembled
      rcases fragments with _ | ⟨root, _ | ⟨next, below⟩⟩
      · have none : last = [] := List.eq_nil_of_length_eq_zero (Automaton.Stacked.length_eq holds).symm
        subst none
        have empty : tokens = [] := spelled.symm
        subst empty
        rw [← found] at assembled
        cases assembled
        exact Or.inl ⟨rfl, rfl⟩
      · rcases holds with _ | ⟨_ | _, laid, exit⟩
        cases assembled
        exact Or.inr ⟨_, spelled, laid, exit⟩
      · contradiction

/-- Every state but the exit is an inner state.  This is what all recognizers
have in common, the one of the empty list included. -/
structure Tidy (recognizer : Recognizer) : Prop where
  exit : recognizer.automaton.state? recognizer.root.exit = some { terminal := true }
  inner : forall id, id < recognizer.automaton.size -> id ≠ recognizer.root.exit ->
    exists state, recognizer.automaton.state? id = some state ∧
      state.Confined 0 recognizer.automaton.size recognizer.root.entry

theorem Realizes.tidy {recognizer : Recognizer} {tree : Expression}
    (realizes : recognizer.Realizes tree) : recognizer.Tidy where
  exit := realizes.exit
  inner := fun _ inside apart => realizes.laid.confined (Nat.zero_le _) inside apart

theorem void_tidy : void.Tidy where
  exit := rfl
  inner := by
    intro id inside apart
    have size : void.automaton.size = 2 := rfl
    have exit : void.root.exit = 1 := rfl
    have only : id = 0 := by lia
    subst only
    refine ⟨_, rfl, .ofEpsilons (by decide) ?_⟩
    intro target member
    have reached : target = 1 := List.mem_singleton.1 member
    subst reached
    decide

theorem tidy_of_assemble {tokens : List Token} {recognizer : Recognizer}
    (assembled : assemble tokens = .ok recognizer) : recognizer.Tidy := by
  rcases realizes_of_assemble assembled with ⟨_, same⟩ | ⟨tree, _, realizes⟩
  · exact same ▸ void_tidy
  · exact realizes.tidy

theorem entry_lt_size_of_assemble {tokens : List Token} {recognizer : Recognizer}
    (assembled : assemble tokens = .ok recognizer) :
    recognizer.root.entry < recognizer.automaton.size := by
  rcases realizes_of_assemble assembled with ⟨_, same⟩ | ⟨tree, _, realizes⟩
  · subst same
    decide
  · exact realizes.laid.bounds.2.1

namespace Tidy

variable {recognizer : Recognizer} {id : StateId} {state : State}

theorem state_cases (tidy : recognizer.Tidy) (found : recognizer.automaton.state? id = some state) :
    (id = recognizer.root.exit ∧ state = { terminal := true }) ∨
      (id ≠ recognizer.root.exit ∧
        state.Confined 0 recognizer.automaton.size recognizer.root.entry) := by
  by_cases same : id = recognizer.root.exit
  · rw [same, tidy.exit] at found
    exact Or.inl ⟨same, (Option.some.inj found).symm⟩
  · rcases tidy.inner id (Automaton.lt_size_of_state? found) same with ⟨other, foundOther, confined⟩
    rw [found] at foundOther
    cases foundOther
    exact Or.inr ⟨same, confined⟩

theorem lt_size_of_target (tidy : recognizer.Tidy)
    (found : recognizer.automaton.state? id = some state) {target : StateId}
    (member : target ∈ state.targets) : target < recognizer.automaton.size := by
  rcases tidy.state_cases found with ⟨_, free⟩ | ⟨_, confined⟩
  · rw [free] at member
    exact absurd member List.not_mem_nil
  · exact (confined.inside target member).2.1

theorem closed (tidy : recognizer.Tidy) : recognizer.automaton.Closed := by
  intro state member
  rcases Array.mem_iff_getElem?.1 member with ⟨id, found⟩
  constructor
  · intro edge edgeMember
    apply tidy.lt_size_of_target found
    exact List.mem_append_left _ (List.mem_map.2 ⟨edge, edgeMember, rfl⟩)
  · intro target targetMember
    exact tidy.lt_size_of_target found (State.mem_targets_of_epsilon targetMember)

theorem unmixed (tidy : recognizer.Tidy) : recognizer.automaton.Unmixed := by
  intro id state byte target found reads
  rcases tidy.state_cases found with ⟨_, free⟩ | ⟨_, confined⟩
  · rw [free]
  · exact confined.epsilons_eq_nil reads

/-- Acceptance at a state means that the state is the exit. -/
theorem terminal_iff (tidy : recognizer.Tidy)
    (found : recognizer.automaton.state? id = some state) :
    state.terminal = true <-> id = recognizer.root.exit := by
  rcases tidy.state_cases found with ⟨same, free⟩ | ⟨apart, confined⟩
  · rw [free]
    exact iff_of_true rfl same
  · rw [confined.silent]
    exact iff_of_false Bool.false_ne_true apart

end Tidy

end Recognizer
end BytePattern
