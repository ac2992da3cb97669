import BytePattern.Proofs.Automaton.Agreement

namespace BytePattern

/-!
# Which lists are postorders

An operator takes the expressions that are complete right before it.  Whether there
are as many as it takes can be asked of any operator of any list: some end of what
stands before it would have to spell that many trees.  The check does not ask this.
It counts, and a count has forgotten where the trees begin.

Up to the first operator that lacks an operand, the two come to the same.  What
stands before it spells a row of trees, and a row can be told from its tokens, so
the trees that end there are the topmost of that row and the count is their number.
Behind such an operator the count would mean nothing, and the check has stopped.
If no operator lacks anything, then the whole list is a row, and the count says how
long it is.
-/

namespace Postorder

/-- The operator finds its operands behind the given front: as many expressions as it
takes are complete there. -/
def Supplied (front : List Token) (op : Operator) : Prop :=
  exists (before : List Token) (operands : Forest),
    operands.length = op.arity ∧ front = before ++ operands.postorder

/-- The operator stands at this position of the list, and fewer expressions are
complete before it than it takes. -/
def Lacks (tokens : List Token) (position : Nat) (op : Operator) : Prop :=
  tokens[position]? = some (.operator op) ∧ ¬ Supplied (tokens.take position) op

/-- The operator at this position lacks an operand, and none before it does. -/
def FirstLacks (tokens : List Token) (position : Nat) (op : Operator) : Prop :=
  Lacks tokens position op ∧
    forall earlier other, earlier < position -> ¬ Lacks tokens earlier other

variable {tokens front back : List Token} {op : Operator} {position count : Nat}

/-- What an operator finds does not depend on what follows it. -/
theorem lacks_append_iff (inside : position < front.length) :
    Lacks (front ++ back) position op <-> Lacks front position op := by
  rw [Lacks, Lacks, List.getElem?_append_left inside, List.take_append_of_le_length (Nat.le_of_lt inside)]

theorem lacks_length_iff {rest : List Token} :
    Lacks (front ++ .operator op :: rest) front.length op <-> ¬ Supplied front op := by
  rw [Lacks, List.take_left, List.getElem?_append_right (Nat.le_refl _), Nat.sub_self]
  exact and_iff_right rfl

theorem FirstLacks.eq {other : Operator} {place : Nat} (first : FirstLacks tokens position op)
    (second : FirstLacks tokens place other) : position = place ∧ op = other := by
  have same : position = place := by
    rcases Nat.lt_trichotomy position place with before | same | behind
    · exact absurd first.1 (second.2 _ _ before)
    · exact same
    · exact absurd second.1 (first.2 _ _ behind)
  have stands := first.1.1
  rw [same, second.1.1] at stands
  exact ⟨same, (Token.operator.inj (Option.some.inj stands)).symm⟩

end Postorder

namespace Forest

open Postorder (FirstLacks Lacks Supplied)

variable {op : Operator} {position : Nat}

/-- The trees that end where a row ends are the topmost of the row. -/
theorem exists_eq_append_of_postorder {forest operands : Forest} {before : List Token}
    (split : forest.postorder = before ++ operands.postorder) :
    exists below : Forest, forest = operands ++ below := by
  have whole : read [] 0 (before ++ operands.postorder) = .ok forest := read_eq_ok_iff.2 split
  rcases exists_read_of_append whole with ⟨below, _, later⟩
  have row := read_row_append operands below (0 + before.length) []
  rw [List.append_nil, later] at row
  exact ⟨below, Except.ok.inj row⟩

/-- Behind a row, an operator finds its operands if the row is long enough. -/
theorem supplied_iff (forest : Forest) :
    Supplied forest.postorder op <-> op.arity <= forest.length := by
  constructor
  · rintro ⟨before, operands, length, split⟩
    rcases exists_eq_append_of_postorder split with ⟨below, same⟩
    rw [same, List.length_append, length]
    exact Nat.le_add_right _ _
  · intro enough
    refine ⟨postorder (forest.drop op.arity), forest.take op.arity, List.length_take_of_le enough, ?_⟩
    rw [← postorder_append, List.take_append_drop]

/-- No operator of a row lacks an operand. -/
theorem not_lacks (forest : Forest) : ¬ Lacks forest.postorder position op := by
  rintro ⟨stands, lacking⟩
  rcases List.getElem?_eq_some_iff.1 stands with ⟨inside, found⟩
  have whole : read [] 0 (forest.postorder.take position ++ forest.postorder.drop position) =
      .ok forest := by
    rw [List.take_append_drop]
    exact read_eq_ok_iff.2 rfl
  rcases exists_read_of_append whole with ⟨middle, before, later⟩
  rw [List.drop_eq_getElem_cons inside, found, read] at later
  rw [← read_eq_ok_iff.1 before, supplied_iff, Nat.not_le] at lacking
  rw [(reduce?_eq_none_iff middle op).2 lacking] at later
  contradiction

/-- An operator for which a row is too short is the first one that lacks an operand. -/
theorem firstLacks_append {forest : Forest} (short : forest.length < op.arity) (rest : List Token) :
    FirstLacks (forest.postorder ++ .operator op :: rest) forest.postorder.length op := by
  constructor
  · rw [Postorder.lacks_length_iff, supplied_iff]
    exact Nat.not_le.2 short
  · intro earlier other before
    rw [Postorder.lacks_append_iff before]
    exact forest.not_lacks

end Forest

namespace Postorder

variable {tokens front : List Token} {op : Operator} {position count : Nat}

/-- Behind a front, as many expressions are pending as the front spells. -/
theorem pends_iff_exists_forest :
    Pends front count <-> exists forest : Forest, forest.postorder = front ∧ forest.length = count := by
  rw [Recognizer.pends_iff]
  constructor
  · rintro ⟨built, taken, length⟩
    rcases Assembly.exists_holds_of_feedAll taken with ⟨forest, spelled, holds⟩
    exact ⟨forest, spelled, (Automaton.Stacked.length_eq holds).symm.trans length⟩
  · rintro ⟨forest, spelled, length⟩
    have fed := Assembly.holds_empty.feedAll 0 front
    rw [Forest.read_eq_ok_iff.2 spelled] at fed
    rcases fed with ⟨built, taken, holds⟩
    exact ⟨built, taken, (Automaton.Stacked.length_eq holds).trans length⟩

/-- Past an operator, the check has what it had before, with one expression in the
place of as many as the operator takes.  There were that many. -/
theorem Pends.operator {after : Nat} (before : Pends front count)
    (behind : Pends (front ++ [.operator op]) after) :
    op.arity <= count ∧ after = count - op.arity + 1 := by
  rcases pends_iff_exists_forest.1 before with ⟨forest, spelled, length⟩
  rcases pends_iff_exists_forest.1 behind with ⟨joined, spelledAll, lengthAfter⟩
  rcases Forest.exists_read_of_append (Forest.read_eq_ok_iff.2 spelledAll) with ⟨middle, own, later⟩
  have same : middle = forest :=
    Forest.postorder_injective ((Forest.read_eq_ok_iff.1 own).trans spelled.symm)
  subst same
  simp only [Forest.read] at later
  split at later
  · next reduced found =>
    cases later
    rw [← length, ← lengthAfter]
    refine ⟨Nat.not_lt.1 fun short => ?_, (Forest.joined_of_reduce? found).length_eq⟩
    rw [(Forest.reduce?_eq_none_iff _ op).2 short] at found
    contradiction
  · contradiction

/-! ## What the check reports -/

theorem firstLacks_of_check (failed : check tokens = .error (.missingOperand op position)) :
    FirstLacks tokens position op := by
  have fails := Recognizer.assemble_eq_error_iff.1 (Recognizer.check_eq_error_iff_assemble.1 failed)
  rcases fails with ⟨front, rest, built, split, length, taken, stopped⟩
  have short : built.fragments.length < op.arity := by
    rw [Assembly.feed] at stopped
    split at stopped
    · contradiction
    · next none => exact (Assembly.reduce?_eq_none_iff built op).1 none
  rcases pends_iff_exists_forest.1 (Recognizer.pends_iff.2 ⟨built, taken, rfl⟩) with
    ⟨forest, spelled, same⟩
  rw [← same] at short
  rw [split, ← length, ← spelled]
  exact Forest.firstLacks_append short rest

theorem check_eq_dangling_iff :
    check tokens = .error (.danglingOperands count) <->
      1 < count ∧ exists forest : Forest, forest.postorder = tokens ∧ forest.length = count := by
  rw [Recognizer.check_eq_error_iff_assemble, Recognizer.assemble_eq_error_iff,
    ← pends_iff_exists_forest, Recognizer.pends_iff]
  constructor
  · rintro ⟨built, taken, length, failed⟩
    exact ⟨length ▸ (Assembly.finish_error_iff.1 failed).1, built, taken, length⟩
  · rintro ⟨many, built, taken, length⟩
    subst length
    exact ⟨built, taken, rfl, Assembly.finish_error_iff.2 ⟨many, rfl⟩⟩

/-- A list without parentheses is a row of trees, or the check misses an operand. -/
theorem exists_forest_or_missing (bare : forall side, .parenthesis side ∉ tokens) :
    (exists forest : Forest, forest.postorder = tokens) ∨
      exists op position, check tokens = .error (.missingOperand op position) := by
  cases checked : check tokens with
  | ok _ =>
      rcases (check_eq_ok_iff tokens).1 checked with empty | ⟨tree, spelled⟩
      · exact Or.inl ⟨[], empty.symm⟩
      · exact Or.inl ⟨[tree], spelled⟩
  | error fault =>
      cases fault with
      | missingOperand op position => exact Or.inr ⟨op, position, rfl⟩
      | danglingOperands count =>
          rcases (check_eq_dangling_iff.1 checked).2 with ⟨forest, spelled, _⟩
          exact Or.inl ⟨forest, spelled⟩
      | parenthesis position =>
          rcases Recognizer.exists_mem_of_check_parenthesis checked with ⟨side, member⟩
          exact absurd member (bare side)

theorem check_eq_missing_iff (bare : forall side, .parenthesis side ∉ tokens) :
    check tokens = .error (.missingOperand op position) <-> FirstLacks tokens position op := by
  constructor
  · exact firstLacks_of_check
  · intro first
    rcases exists_forest_or_missing bare with ⟨forest, spelled⟩ | ⟨other, place, failed⟩
    · exact absurd (spelled ▸ first.1) forest.not_lacks
    · rcases first.eq (firstLacks_of_check failed) with ⟨same, own⟩
      rw [same, own, failed]

/-- Without parentheses, the check passes the empty list and the postorders, each of
which belongs to one tree.  It reports the first operator that lacks an operand.  If
none does, then the list is a row of several trees, in one way only, and it reports
their number.  Where it takes operands from its count, they are there. -/
theorem check_recognizes_postorders {tokens : List Token}
    (bare : forall side, .parenthesis side ∉ tokens) :
    (check tokens = .ok () <->
        tokens = [] ∨ exists tree : Expression, tree.postorder = tokens ∧
          forall other : Expression, other.postorder = tokens -> other = tree) ∧
      (forall op position, check tokens = .error (.missingOperand op position) <->
        FirstLacks tokens position op) ∧
      (forall count, check tokens = .error (.danglingOperands count) <->
        (forall op position, ¬ Lacks tokens position op) ∧ 1 < count ∧
          exists forest : Forest, forest.postorder = tokens ∧ forest.length = count ∧
            forall other : Forest, other.postorder = tokens -> other = forest) ∧
      (forall position, check tokens ≠ .error (.parenthesis position)) ∧
      forall front op before after, Pends front before -> Pends (front ++ [.operator op]) after ->
        1 <= op.arity ∧ op.arity - 1 <= before ∧ after = before - (op.arity - 1) := by
  refine ⟨?_, fun op position => check_eq_missing_iff bare, ?_, ?_, ?_⟩
  · rw [check_eq_ok_iff]
    refine or_congr_right (exists_congr fun tree => (and_iff_left_of_imp ?_).symm)
    intro spelled other same
    exact Expression.postorder_injective (same.trans spelled.symm)
  · intro count
    rw [check_eq_dangling_iff]
    constructor
    · rintro ⟨many, forest, spelled, length⟩
      refine ⟨fun op position => spelled ▸ forest.not_lacks, many, forest, spelled, length, ?_⟩
      intro other same
      exact Forest.postorder_injective (same.trans spelled.symm)
    · rintro ⟨_, many, forest, spelled, length, _⟩
      exact ⟨many, forest, spelled, length⟩
  · intro position failed
    rcases Recognizer.exists_mem_of_check_parenthesis failed with ⟨side, member⟩
    exact bare side member
  · intro front op before after pends behind
    have step := pends.operator behind
    have takes : 1 <= op.arity := by cases op <;> decide
    omega

/-- A concatenation finds nothing but a choice, and the repetition behind it is not
reported.  With a byte in their place, two expressions are left. -/
theorem check_recognizes_postorders_choice_without_partner :
    (forall side, .parenthesis side ∉ [Token.literal 0x61, .literal 0x62, .operator .alternate,
        .operator .concat, .operator .plus]) ∧
      FirstLacks [.literal 0x61, .literal 0x62, .operator .alternate, .operator .concat,
        .operator .plus] 3 .concat ∧
      (forall side, .parenthesis side ∉ [Token.literal 0x61, .literal 0x62, .operator .alternate,
        .literal 0x63]) ∧
      exists forest : Forest,
        forest.postorder = [.literal 0x61, .literal 0x62, .operator .alternate, .literal 0x63] ∧
          forest.length = 2 ∧
          forall other : Forest,
            other.postorder = [.literal 0x61, .literal 0x62, .operator .alternate, .literal 0x63] ->
              other = forest := by
  have lacking : forall side, .parenthesis side ∉ [Token.literal 0x61, .literal 0x62,
      .operator .alternate, .operator .concat, .operator .plus] := by simp
  have several : forall side, .parenthesis side ∉ [Token.literal 0x61, .literal 0x62,
      .operator .alternate, .literal 0x63] := by simp
  rcases check_recognizes_postorders lacking with ⟨_, missing, _⟩
  rcases check_recognizes_postorders several with ⟨_, _, dangling, _⟩
  exact ⟨lacking, (missing .concat 3).1 rfl, several, ((dangling 2).1 rfl).2.2⟩

end Postorder
end BytePattern
