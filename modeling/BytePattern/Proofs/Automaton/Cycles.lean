import Mathlib.Logic.Relation
import BytePattern.Proofs.Automaton.Language
import BytePattern.Proofs.Automaton.Ownership
import BytePattern.Proofs.Postorder.Repetition

namespace BytePattern

/-!
# Where cycles come from

The moves that a repetition adds behind its operand are the only ones that lead
back.  A cycle therefore passes from the exit of a repeated operand to its entry,
and then it has to get through the operand again.  If it does so without reading,
the operand matches the empty word.  It can always be done with reading, as every
expression matches some word.

The argument is the same for moves of any kind, and so it is made once, for a
relation between states that is contained in the moves.  A cycle within the
interval of an expression is cut at the exits of the operands: if it does not
pass an exit, it lies within the operand, and otherwise it comes back to it
through the entry.
-/

open Relation (ReflTransGen TransGen)

namespace Automaton

/-- Some move without reading leads from the one state to the other. -/
def LinkedByEpsilon (automaton : Automaton) (id target : StateId) : Prop :=
  exists state, automaton.state? id = some state ∧ target ∈ state.epsilons

/-- Some byte leads from the one state to the other. -/
def LinkedByByte (automaton : Automaton) (id target : StateId) : Prop :=
  exists state, automaton.state? id = some state ∧ target ∈ state.edges.map Prod.snd

/-- Some state is reached from itself by one move or more. -/
def Circular (move : StateId -> StateId -> Prop) : Prop :=
  exists id, TransGen move id id

/-- The moves that are made until a state is reached, which is not left again. -/
def Before (move : StateId -> StateId -> Prop) (goal id target : StateId) : Prop :=
  id ≠ goal ∧ move id target

variable {automaton : Automaton} {move : StateId -> StateId -> Prop} {goal id last : StateId}

theorem LinkedByEpsilon.linked (linked : automaton.LinkedByEpsilon id last) :
    automaton.Linked id last := by
  rcases linked with ⟨state, found, member⟩
  exact ⟨state, found, List.mem_append_right _ member⟩

theorem LinkedByByte.linked (linked : automaton.LinkedByByte id last) :
    automaton.Linked id last := by
  rcases linked with ⟨state, found, member⟩
  exact ⟨state, found, List.mem_append_left _ member⟩

/-! ## Walks until a state is reached -/

theorem eq_of_walk_goal (walk : ReflTransGen (Before move goal) goal last) : last = goal := by
  rcases walk.cases_head with same | ⟨next, ⟨apart, _⟩, _⟩
  · exact same.symm
  · exact absurd rfl apart

/-- A target that is not the goal is the only one to walk on from. -/
theorem not_walk_of_ends {targets : List StateId} {entry : StateId} (apart : id ≠ goal)
    (ends : forall target, target ∈ targets -> target = entry ∨ target = goal) :
    forall target, target ∈ targets -> target ≠ entry ->
      ¬ ReflTransGen (Before move goal) target id := by
  intro target member other walk
  rw [(ends target member).resolve_left other] at walk
  exact apart (eq_of_walk_goal walk)

theorem ne_goal_of_cycle (cycle : TransGen (Before move goal) id id) : id ≠ goal := by
  rcases TransGen.head'_iff.1 cycle with ⟨next, ⟨apart, _⟩, _⟩
  exact apart

/-- A path is a walk. -/
theorem Path.walk {word : List UInt8} (path : automaton.Path id word last) :
    ReflTransGen automaton.Linked id last := by
  induction path with
  | refl id => exact .refl
  | epsilon found member _ ih => exact .head ⟨_, found, State.mem_targets_of_epsilon member⟩ ih
  | edge found reads _ ih => exact .head ⟨_, found, State.mem_targets_of_next? reads⟩ ih

theorem Path.walk_of_nil (path : automaton.Path id [] last) :
    ReflTransGen automaton.LinkedByEpsilon id last := by
  generalize empty : ([] : List UInt8) = word at path
  induction path with
  | refl id => exact .refl
  | epsilon found member _ ih => exact .head ⟨_, found, member⟩ (ih empty)
  | edge _ _ _ _ => contradiction

theorem Arrives.of_walk (walk : ReflTransGen (Before automaton.LinkedByEpsilon goal) id goal) :
    Arrives automaton goal id [] := by
  induction walk using ReflTransGen.head_induction_on with
  | refl => exact .here
  | head step _ ih =>
      rcases step with ⟨apart, state, found, member⟩
      exact .epsilon apart found member ih

namespace Laid

variable {tree : Expression} {low high : StateId} {whole : Fragment}

/-- Until the exit is reached, no move leads out of the interval, or back to the
entry. -/
theorem step_inside (laid : Laid automaton tree low whole high)
    (linked : forall id target, move id target -> automaton.Linked id target) {target : StateId}
    (step : Before move whole.exit id target) (fromLow : low <= id) (toHigh : id < high) :
    low <= target ∧ target < high ∧ target ≠ whole.entry := by
  rcases linked id target step.2 with ⟨state, found, member⟩
  rcases laid.confined fromLow toHigh step.1 with ⟨other, foundOther, confined⟩
  rw [found] at foundOther
  cases foundOther
  exact confined.inside target member

theorem walk_inside (laid : Laid automaton tree low whole high)
    (linked : forall id target, move id target -> automaton.Linked id target)
    (walk : ReflTransGen (Before move whole.exit) id last) (fromLow : low <= id) (toHigh : id < high) :
    low <= last ∧ last < high := by
  induction walk with
  | refl => exact ⟨fromLow, toHigh⟩
  | tail _ step ih =>
      have inside := laid.step_inside linked step ih.1 ih.2
      exact ⟨inside.1, inside.2.1⟩

/-- No cycle passes the entry. -/
theorem ne_entry_of_cycle (laid : Laid automaton tree low whole high)
    (linked : forall id target, move id target -> automaton.Linked id target)
    (cycle : TransGen (Before move whole.exit) id id) (fromLow : low <= id) (toHigh : id < high) :
    id ≠ whole.entry := by
  rcases TransGen.tail'_iff.1 cycle with ⟨previous, walk, step⟩
  have inside := laid.walk_inside linked walk fromLow toHigh
  exact (laid.step_inside linked step inside.1 inside.2).2.2

/-- A move from a state of an operand stays within the operand, or it leads from
the exit back to the entry, if other targets do not lead back. -/
private theorem step_cases (laid : Laid automaton tree low whole high)
    (linked : forall id target, move id target -> automaton.Linked id target) {targets : List StateId}
    (left : automaton.state? whole.exit = some { epsilons := targets })
    (away : forall target, target ∈ targets -> target ≠ whole.entry ->
      ¬ ReflTransGen (Before move goal) target last)
    {next : StateId} (step : Before move goal id next) (rest : ReflTransGen (Before move goal) next last)
    (fromLow : low <= id) (toHigh : id < high) :
    (Before move whole.exit id next ∧ low <= next ∧ next < high) ∨
      (id = whole.exit ∧ next = whole.entry ∧ move whole.exit whole.entry) := by
  by_cases atExit : id = whole.exit
  · subst atExit
    rcases linked _ next step.2 with ⟨state, found, member⟩
    rw [left] at found
    cases found
    by_cases back : next = whole.entry
    · exact Or.inr ⟨rfl, back, back ▸ step.2⟩
    · exact absurd rest (away next member back)
  · have stays : Before move whole.exit id next := ⟨atExit, step.2⟩
    have inside := laid.step_inside linked stays fromLow toHigh
    exact Or.inl ⟨stays, inside.1, inside.2.1⟩

/-- A walk within the interval of an operand is cut where its exit is first
reached.  From there it goes on at the entry. -/
private theorem cut (laid : Laid automaton tree low whole high)
    (linked : forall id target, move id target -> automaton.Linked id target) {targets : List StateId}
    (left : automaton.state? whole.exit = some { epsilons := targets })
    (away : forall target, target ∈ targets -> target ≠ whole.entry ->
      ¬ ReflTransGen (Before move goal) target last)
    (walk : TransGen (Before move goal) id last) (fromLow : low <= id) (toHigh : id < high) :
    TransGen (Before move whole.exit) id last ∨
      (ReflTransGen (Before move whole.exit) id whole.exit ∧ move whole.exit whole.entry ∧
        ReflTransGen (Before move goal) whole.entry last) := by
  induction walk using TransGen.head_induction_on with
  | single step =>
      rcases laid.step_cases linked left away step .refl fromLow toHigh with
        ⟨stays, _⟩ | ⟨atExit, back, leads⟩
      · exact Or.inl (.single stays)
      · exact Or.inr ⟨atExit ▸ .refl, leads, back ▸ .refl⟩
  | head step rest ih =>
      rcases laid.step_cases linked left away step rest.to_reflTransGen fromLow toHigh with
        ⟨stays, nextLow, nextHigh⟩ | ⟨atExit, back, leads⟩
      · rcases ih nextLow nextHigh with within | ⟨out, again⟩
        · exact Or.inl (.head stays within)
        · exact Or.inr ⟨.head stays out, again⟩
      · exact Or.inr ⟨atExit ▸ .refl, leads, back ▸ rest.to_reflTransGen⟩

/-- A cycle through a state of an operand lies within the operand, or it comes
back from the exit to the entry, and gets through the operand once more. -/
theorem cycle_cases (laid : Laid automaton tree low whole high)
    (linked : forall id target, move id target -> automaton.Linked id target) {targets : List StateId}
    (left : automaton.state? whole.exit = some { epsilons := targets })
    (away : forall target, target ∈ targets -> target ≠ whole.entry ->
      ¬ ReflTransGen (Before move goal) target id)
    (cycle : TransGen (Before move goal) id id) (fromLow : low <= id) (toHigh : id < high) :
    TransGen (Before move whole.exit) id id ∨
      (move whole.exit whole.entry ∧
        ReflTransGen (Before move whole.exit) whole.entry whole.exit) := by
  have bounds := laid.bounds
  rcases laid.cut linked left away cycle fromLow toHigh with within | ⟨out, back, again⟩
  · exact Or.inl within
  · rcases Relation.reflTransGen_iff_eq_or_transGen.1 again with same | more
    · exact Or.inr ⟨back, same ▸ out⟩
    · rcases laid.cut linked left away more bounds.1 bounds.2.1 with through | ⟨through, _⟩
      · exact Or.inr ⟨back, through.to_reflTransGen.trans out⟩
      · exact Or.inr ⟨back, through⟩

/-! ## Every cycle comes from a repetition -/

section Repetition

variable {kind : Expression -> Prop}

/-- Getting from the exit of an operand to its entry, and through the operand to
its exit again, requires that the operand is of the given kind. -/
def Requires (automaton : Automaton) (move : StateId -> StateId -> Prop)
    (kind : Expression -> Prop) : Prop :=
  forall {operand : Expression} {low high : StateId} {inner : Fragment} {targets : List StateId},
    Laid automaton operand low inner high ->
      automaton.state? inner.exit = some { epsilons := targets } -> move inner.exit inner.entry ->
        ReflTransGen (Before move inner.exit) inner.entry inner.exit -> kind operand

/-- A cycle through an operand repeats something in it, or it repeats it. -/
private theorem repeats_operand (laid : Laid automaton tree low whole high)
    (linked : forall id target, move id target -> automaton.Linked id target)
    (required : Requires automaton move kind) {targets : List StateId}
    (left : automaton.state? whole.exit = some { epsilons := targets })
    (away : forall target, target ∈ targets -> target ≠ whole.entry ->
      ¬ ReflTransGen (Before move goal) target id)
    (within : TransGen (Before move whole.exit) id id -> low <= id -> id < high ->
      id ≠ whole.exit -> id ≠ whole.entry -> tree.Repeats kind)
    (cycle : TransGen (Before move goal) id id) (fromLow : low <= id) (toHigh : id < high) :
    tree.Repeats kind ∨ (kind tree ∧ whole.entry ∈ targets) := by
  rcases laid.cycle_cases linked left away cycle fromLow toHigh with inside | ⟨leads, through⟩
  · exact Or.inl (within inside fromLow toHigh (ne_goal_of_cycle inside)
      (laid.ne_entry_of_cycle linked inside fromLow toHigh))
  · rcases linked _ _ leads with ⟨state, found, member⟩
    rw [left] at found
    cases found
    exact Or.inr ⟨required laid left leads through, member⟩

/-- An expression within whose interval there is a cycle repeats an operand. -/
theorem repeats_of_cycle (linked : forall id target, move id target -> automaton.Linked id target)
    (required : Requires automaton move kind) (laid : Laid automaton tree low whole high)
    (cycle : TransGen (Before move whole.exit) id id) (fromLow : low <= id) (toHigh : id < high) :
    tree.Repeats kind := by
  have apartExit := ne_goal_of_cycle cycle
  have apartEntry := laid.ne_entry_of_cycle linked cycle fromLow toHigh
  induction laid generalizing id with
  | literal entered =>
      dsimp only at apartExit apartEntry
      lia
  | @concat left right low middle high front back leftLaid rightLaid joined leftIH rightIH =>
      have leftBounds := leftLaid.bounds
      have rightBounds := rightLaid.bounds
      dsimp only at cycle apartExit
      by_cases inLeft : id < middle
      · have away : forall target, target ∈ [back.entry] -> target ≠ front.entry ->
            ¬ ReflTransGen (Before move back.exit) target id := by
          intro target member _ walk
          rw [List.mem_singleton.1 member] at walk
          have inside := rightLaid.walk_inside linked walk rightBounds.1 rightBounds.2.1
          lia
        rcases leftLaid.repeats_operand linked required joined away leftIH cycle fromLow inLeft with
          inside | ⟨_, member⟩
        · exact Or.inl inside
        · have same := List.mem_singleton.1 member
          lia
      · have inRight : middle <= id := Nat.not_lt.1 inLeft
        exact Or.inr (rightIH cycle inRight toHigh apartExit
          (rightLaid.ne_entry_of_cycle linked cycle inRight toHigh))
  | @alternate left right low middle last front back leftLaid rightLaid entered leftLeft rightLeft
      leftIH rightIH =>
      have leftBounds := leftLaid.bounds
      have rightBounds := rightLaid.bounds
      dsimp only at cycle apartExit apartEntry
      have past : forall entry target, target ∈ [last + 1] -> target = entry ∨ target = last + 1 :=
        fun entry target member => Or.inr (List.mem_singleton.1 member)
      by_cases inLeft : id < middle
      · rcases leftLaid.repeats_operand linked required leftLeft (not_walk_of_ends apartExit (past _))
          leftIH cycle fromLow inLeft with inside | ⟨_, member⟩
        · exact Or.inl inside
        · have same := List.mem_singleton.1 member
          lia
      · rcases rightLaid.repeats_operand linked required rightLeft (not_walk_of_ends apartExit (past _))
          rightIH cycle (by lia) (by lia) with inside | ⟨_, member⟩
        · exact Or.inr inside
        · have same := List.mem_singleton.1 member
          lia
  | @optional operand low last inner laid entered left ih =>
      have bounds := laid.bounds
      dsimp only at cycle apartExit apartEntry
      rcases laid.repeats_operand linked required left (not_walk_of_ends apartExit (by simp)) ih cycle
        fromLow (by lia) with inside | ⟨_, member⟩
      · exact inside
      · have same := List.mem_singleton.1 member
        lia
  | @plus operand low last inner laid entered left ih
  | @star operand low last inner laid entered left ih =>
      dsimp only at cycle apartExit apartEntry
      rcases laid.repeats_operand linked required left (not_walk_of_ends apartExit (by simp)) ih cycle
        fromLow (by lia) with inside | ⟨repeated, _⟩
      · exact Or.inr inside
      · exact Or.inl repeated

/-! ## Every repetition makes a cycle -/

/-- A repetition leads back from the exit of its operand, and the operand leads
there again. -/
theorem circular_of_repeats
    (joined : forall id target, automaton.LinkedByEpsilon id target -> move id target)
    (through : forall {operand : Expression} {low high : StateId} {inner : Fragment},
      Laid automaton operand low inner high -> kind operand ->
        ReflTransGen move inner.entry inner.exit)
    (laid : Laid automaton tree low whole high) (repeats : tree.Repeats kind) : Circular move := by
  induction laid with
  | literal _ => exact repeats.elim
  | concat _ _ _ leftIH rightIH | alternate _ _ _ _ _ leftIH rightIH =>
      exact repeats.elim leftIH rightIH
  | optional _ _ _ ih => exact ih repeats
  | @plus operand low last inner laid _ left ih | @star operand low last inner laid _ left ih =>
      rcases repeats with here | inside
      · have back : move inner.exit inner.entry := joined _ _ ⟨_, left, List.mem_cons_self⟩
        exact ⟨inner.exit, TransGen.head' back (through laid here)⟩
      · exact ih inside

end Repetition

end Laid
end Automaton

namespace Recognizer

open Automaton (Before Circular)

variable {recognizer : Recognizer} {move : StateId -> StateId -> Prop} {id : StateId}

/-- The exit is not left, so a cycle only consists of moves that are made before
it is reached. -/
theorem Tidy.cycle_before_exit (tidy : recognizer.Tidy)
    (linked : forall id target, move id target -> recognizer.automaton.Linked id target)
    (cycle : TransGen move id id) :
    id < recognizer.automaton.size ∧ TransGen (Before move recognizer.root.exit) id id := by
  constructor
  · rcases TransGen.head'_iff.1 cycle with ⟨next, step, _⟩
    rcases linked _ _ step with ⟨state, found, _⟩
    exact Automaton.lt_size_of_state? found
  · have steps : forall first second, move first second ->
        Before move recognizer.root.exit first second := by
      intro first second step
      refine ⟨fun same => ?_, step⟩
      exact tidy.not_linked_exit second (same ▸ linked first second step)
    exact TransGen.mono steps id id cycle

theorem Tidy.not_linked_entry (tidy : recognizer.Tidy) :
    ¬ recognizer.automaton.Linked id recognizer.root.entry := by
  rintro ⟨state, found, member⟩
  rcases tidy.state_cases found with ⟨_, free⟩ | ⟨_, confined⟩
  · rw [free] at member
    exact List.not_mem_nil member
  · exact (confined.inside _ member).2.2 rfl

/-- The automaton of the empty list has no states but an entry and an exit. -/
theorem not_circular_void (linked : forall id target, move id target -> void.automaton.Linked id target) :
    ¬ Circular move := by
  rintro ⟨id, cycle⟩
  rcases void_tidy.cycle_before_exit linked cycle with ⟨inside, before⟩
  have apartExit : id ≠ 1 := Automaton.ne_goal_of_cycle before
  have size : void.automaton.size = 2 := rfl
  rcases TransGen.tail'_iff.1 cycle with ⟨previous, _, step⟩
  have only : id = void.root.entry := by
    change id = 0
    lia
  exact void_tidy.not_linked_entry (only ▸ linked previous id step)

section Kind

variable {tree : Expression} {kind : Expression -> Prop}

theorem Realizes.repeats_of_circular (realizes : recognizer.Realizes tree)
    (linked : forall id target, move id target -> recognizer.automaton.Linked id target)
    (required : Automaton.Laid.Requires recognizer.automaton move kind) (circular : Circular move) :
    tree.Repeats kind := by
  rcases circular with ⟨id, cycle⟩
  rcases realizes.tidy.cycle_before_exit linked cycle with ⟨inside, before⟩
  exact realizes.laid.repeats_of_cycle linked required before (Nat.zero_le id) inside

/-- Every expression can be got through by reading some word. -/
theorem Realizes.circular_linked_iff (realizes : recognizer.Realizes tree) :
    Circular recognizer.automaton.Linked <-> tree.Repeats fun _ => True := by
  constructor
  · exact realizes.repeats_of_circular (fun _ _ => id) fun _ _ _ _ => trivial
  · refine realizes.laid.circular_of_repeats (fun _ _ => Automaton.LinkedByEpsilon.linked) ?_
    intro operand low high inner laid _
    rcases operand.exists_matches with ⟨word, found⟩
    exact (laid.path_of_matches found).walk

/-- Getting through an expression without reading means that it matches the
empty word. -/
theorem Realizes.circular_linkedByEpsilon_iff (realizes : recognizer.Realizes tree) :
    Circular recognizer.automaton.LinkedByEpsilon <-> tree.Repeats fun operand => operand.Matches [] := by
  constructor
  · refine realizes.repeats_of_circular (fun _ _ => Automaton.LinkedByEpsilon.linked) ?_
    intro operand low high inner targets laid _ _ walk
    exact laid.matches_of_arrives (.of_walk walk)
  · refine realizes.laid.circular_of_repeats (fun _ _ => id) ?_
    intro operand low high inner laid found
    exact (laid.path_of_matches found).walk_of_nil

/-- No byte is read on the way back from an exit. -/
theorem Realizes.not_circular_linkedByByte (realizes : recognizer.Realizes tree) :
    ¬ Circular recognizer.automaton.LinkedByByte := by
  intro circular
  refine tree.not_repeats (fun _ => id) (realizes.repeats_of_circular
    (fun _ _ => Automaton.LinkedByByte.linked) ?_ circular)
  intro operand low high inner targets _ left leads _
  rcases leads with ⟨state, found, member⟩
  rw [left] at found
  cases found
  exact List.not_mem_nil member

end Kind

/-- The automaton of a list that passes the check has a cycle if and only if the
list holds a repetition of at least one or of any number of times, and it has a
cycle without reading if and only if the operand of one of these matches the empty
word.  No cycle reads at every move. -/
theorem circular_iff_of_check {tokens : List Token} (passed : Postorder.check tokens = .ok ()) :
    exists recognizer, assemble tokens = .ok recognizer ∧
      (Circular recognizer.automaton.Linked <->
        .operator .plus ∈ tokens ∨ .operator .star ∈ tokens) ∧
      (Circular recognizer.automaton.LinkedByEpsilon <->
        Postorder.Repeated (fun operand => operand.Matches []) tokens) ∧
      ¬ Circular recognizer.automaton.LinkedByByte := by
  rcases (Postorder.check_eq_ok_iff tokens).1 passed with empty | ⟨tree, spelled⟩
  · subst empty
    refine ⟨void, assemble_nil, iff_of_false (not_circular_void fun _ _ => id) (by simp),
      iff_of_false (not_circular_void fun _ _ => Automaton.LinkedByEpsilon.linked) ?_,
      not_circular_void fun _ _ => Automaton.LinkedByByte.linked⟩
    rintro ⟨op, front, operand, rest, _, split, _⟩
    simp at split
  · subst spelled
    rcases assemble_postorder tree with ⟨recognizer, assembled, realizes⟩
    exact ⟨recognizer, assembled, realizes.circular_linked_iff.trans tree.repeats_iff_mem,
      realizes.circular_linkedByEpsilon_iff.trans Expression.repeats_iff_repeated,
      realizes.not_circular_linkedByByte⟩

/-- The cycle of a repeated byte reads that byte.  If the byte is optional, there
also is a cycle that does not read. -/
theorem circular_iff_of_check_optional_byte :
    Postorder.check [.literal 0x61, .operator .plus] = .ok () ∧
      (exists recognizer, assemble [.literal 0x61, .operator .plus] = .ok recognizer ∧
        Circular recognizer.automaton.Linked ∧ ¬ Circular recognizer.automaton.LinkedByEpsilon) ∧
    Postorder.check [.literal 0x61, .operator .optional, .operator .plus] = .ok () ∧
      exists recognizer,
        assemble [.literal 0x61, .operator .optional, .operator .plus] = .ok recognizer ∧
          Circular recognizer.automaton.LinkedByEpsilon ∧
            ¬ Circular recognizer.automaton.LinkedByByte := by
  have reads : Postorder.check [.literal 0x61, .operator .plus] = .ok () := rfl
  have skips : Postorder.check [.literal 0x61, .operator .optional, .operator .plus] = .ok () := rfl
  refine ⟨reads, ?_, skips, ?_⟩
  · rcases circular_iff_of_check reads with ⟨recognizer, assembled, cycles, silent, _⟩
    refine ⟨recognizer, assembled, cycles.2 (by simp), fun circular => ?_⟩
    have repeated : (Expression.plus (.literal 0x61)).Repeats fun operand => operand.Matches [] :=
      Expression.repeats_iff_repeated.2 (silent.1 circular)
    rcases repeated with matched | deeper
    · cases matched
    · exact deeper
  · rcases circular_iff_of_check skips with ⟨recognizer, assembled, _, silent, reading⟩
    refine ⟨recognizer, assembled, silent.2 ?_, reading⟩
    exact ⟨.plus, [], .optional (.literal 0x61), [], Or.inl rfl, rfl, .optionalNone⟩

end Recognizer
end BytePattern
