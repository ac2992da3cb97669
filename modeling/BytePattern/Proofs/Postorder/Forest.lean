import BytePattern.Expression
import BytePattern.Postorder.Check

namespace BytePattern

/-!
# Postorders as rows of trees

The check of a postorder keeps a number, and the assembly of an automaton keeps
a stack of fragments.  Both stand for the same thing: the row of expressions
that are complete so far.  Here the row itself is kept.  Reading a list this way
fails where the check fails, and the row that remains spells exactly the tokens
that were read.

No tree is ever built by a stage of compilation.  The row is what their states
are compared with, so that an agreement between two stages is stated once, as
an agreement of each with the row.
-/

/-- A row of expressions, the latest first. -/
abbrev Forest : Type := List Expression

namespace Forest

open Postorder (Fault)

/-- The tokens of all trees of the row, in the order in which they were read. -/
def postorder : Forest -> List Token
  | [] => []
  | tree :: below => postorder below ++ tree.postorder

/-- Joins the latest trees under an operator, if there are enough. -/
def reduce? (forest : Forest) (op : Operator) : Option Forest :=
  match op, forest with
  | .concat, right :: left :: below => some (.concat left right :: below)
  | .alternate, right :: left :: below => some (.alternate left right :: below)
  | .optional, operand :: below => some (.optional operand :: below)
  | .plus, operand :: below => some (.plus operand :: below)
  | .star, operand :: below => some (.star operand :: below)
  | _, _ => none

/-- Reads the rest of a list, the first token of which stands at the given
position. -/
def read (forest : Forest) (position : Nat) : List Token -> Except Fault Forest
  | [] => .ok forest
  | .literal byte :: rest => read (.literal byte :: forest) (position + 1) rest
  | .operator op :: rest =>
      match forest.reduce? op with
      | some reduced => read reduced (position + 1) rest
      | none => .error (.missingOperand op position)
  | .parenthesis _ :: _ => .error (.parenthesis position)

/-! ## One operator -/

theorem reduce?_eq_none_iff (forest : Forest) (op : Operator) :
    forest.reduce? op = none <-> forest.length < op.arity := by
  cases op <;> rcases forest with _ | ⟨last, _ | ⟨previous, below⟩⟩ <;>
    simp [reduce?, Operator.arity]

/-- The five ways in which trees are joined. -/
inductive Joined : Operator -> Forest -> Forest -> Prop where
  | concat (left right : Expression) (below : Forest) :
      Joined .concat (right :: left :: below) (.concat left right :: below)
  | alternate (left right : Expression) (below : Forest) :
      Joined .alternate (right :: left :: below) (.alternate left right :: below)
  | optional (operand : Expression) (below : Forest) :
      Joined .optional (operand :: below) (.optional operand :: below)
  | plus (operand : Expression) (below : Forest) :
      Joined .plus (operand :: below) (.plus operand :: below)
  | star (operand : Expression) (below : Forest) :
      Joined .star (operand :: below) (.star operand :: below)

theorem joined_of_reduce? {forest reduced : Forest} {op : Operator}
    (found : forest.reduce? op = some reduced) : Joined op forest reduced := by
  cases op <;> rcases forest with _ | ⟨last, _ | ⟨previous, below⟩⟩ <;>
    first
    | contradiction
    | (cases found; constructor)

namespace Joined

variable {forest reduced : Forest} {op : Operator}

theorem length_eq (joined : Joined op forest reduced) :
    reduced.length = forest.length - op.arity + 1 := by
  cases joined <;> simp [Operator.arity]

/-- An operator appends its own token and moves no other. -/
theorem postorder_eq (joined : Joined op forest reduced) :
    reduced.postorder = forest.postorder ++ [.operator op] := by
  cases joined <;> simp [postorder, Expression.postorder]

end Joined

/-! ## A whole list -/

/-- Nothing is lost in the row: it spells what it spelled before, followed by
the tokens that were read. -/
theorem postorder_of_read {forest last : Forest} {position : Nat} {tokens : List Token}
    (succeeded : forest.read position tokens = .ok last) :
    last.postorder = forest.postorder ++ tokens := by
  induction tokens generalizing forest position with
  | nil =>
      cases succeeded
      exact (List.append_nil _).symm
  | cons token rest ih =>
      cases token with
      | literal byte =>
          rw [ih succeeded, postorder, Expression.postorder, List.append_assoc]
          rfl
      | operator op =>
          simp only [read] at succeeded
          split at succeeded
          · next reduced found =>
            rw [ih succeeded, (joined_of_reduce? found).postorder_eq, List.append_assoc]
            rfl
          · contradiction
      | parenthesis side => contradiction

/-- The tokens of a tree are read as that tree, whatever stands before and
after them. -/
theorem read_postorder_append (tree : Expression) (forest : Forest) (position : Nat)
    (rest : List Token) :
    forest.read position (tree.postorder ++ rest) =
      read (tree :: forest) (position + tree.postorder.length) rest := by
  induction tree generalizing forest position rest with
  | literal byte => rfl
  | concat left right leftIH rightIH | alternate left right leftIH rightIH =>
      simp only [Expression.postorder, List.append_assoc, List.length_append, List.length_singleton,
        leftIH, rightIH, List.singleton_append, read, reduce?, Nat.add_assoc]
  | optional operand ih | plus operand ih | star operand ih =>
      simp only [Expression.postorder, List.append_assoc, List.length_append, List.length_singleton,
        ih, List.singleton_append, read, reduce?, Nat.add_assoc]

/-- So are the tokens of a whole row. -/
theorem read_row_append (row forest : Forest) (position : Nat) (rest : List Token) :
    forest.read position (row.postorder ++ rest) =
      read (row ++ forest) (position + row.postorder.length) rest := by
  induction row generalizing rest with
  | nil => rfl
  | cons tree below ih =>
      rw [postorder, List.append_assoc, ih, read_postorder_append, List.length_append, Nat.add_assoc]
      rfl

/-- A list that is read is read front by front. -/
theorem exists_read_of_append {forest last : Forest} {position : Nat} {front back : List Token}
    (succeeded : forest.read position (front ++ back) = .ok last) :
    exists middle : Forest, forest.read position front = .ok middle ∧
      middle.read (position + front.length) back = .ok last := by
  induction front generalizing forest position with
  | nil => exact ⟨forest, rfl, succeeded⟩
  | cons token front ih =>
      rw [List.length_cons, Nat.add_comm front.length, ← Nat.add_assoc]
      cases token with
      | literal byte => exact ih succeeded
      | operator op =>
          simp only [List.cons_append, read] at succeeded ⊢
          split at succeeded
          · next reduced joined => exact ih succeeded
          · contradiction
      | parenthesis side => contradiction

theorem read_postorder (tree : Expression) (position : Nat) :
    read [] position tree.postorder = .ok [tree] := by
  have whole := read_postorder_append tree [] position []
  rwa [List.append_nil] at whole

/-- A list is read as the row that it spells. -/
theorem read_eq_ok_iff {tokens : List Token} {forest : Forest} :
    read [] 0 tokens = .ok forest <-> forest.postorder = tokens := by
  constructor
  · exact postorder_of_read
  · intro spelled
    have whole := read_row_append forest [] 0 []
    rwa [List.append_nil, List.append_nil, spelled] at whole

/-- A row can be told from its tokens. -/
theorem postorder_injective {first second : Forest}
    (same : first.postorder = second.postorder) : first = second := by
  have read := read_eq_ok_iff.2 same
  rw [read_eq_ok_iff.2 rfl] at read
  exact (Except.ok.inj read).symm

theorem postorder_append (upper lower : Forest) :
    postorder (upper ++ lower) = lower.postorder ++ upper.postorder := by
  induction upper with
  | nil => exact (List.append_nil _).symm
  | cons tree upper ih => rw [List.cons_append, postorder, postorder, ih, List.append_assoc]

/-- A row with at most one tree spells no token or a single tree. -/
theorem eq_nil_or_singleton {forest : Forest} (few : ¬ 1 < forest.length) :
    forest = [] ∨ exists tree, forest = [tree] := by
  rcases forest with _ | ⟨tree, _ | ⟨next, below⟩⟩
  · exact Or.inl rfl
  · exact Or.inr ⟨tree, rfl⟩
  · exact absurd (Nat.succ_lt_succ (Nat.succ_pos _)) few

end Forest

namespace Expression

/-- A tree can be told from its tokens. -/
theorem postorder_injective {left right : Expression}
    (same : left.postorder = right.postorder) : left = right := by
  have read := Forest.read_postorder left 0
  rw [same, Forest.read_postorder right 0] at read
  cases read
  rfl

theorem postorder_ne_nil (tree : Expression) : tree.postorder ≠ [] := by
  cases tree <;> simp [postorder]

end Expression

namespace Postorder

/-- The check counts the trees of the row.  It fails where reading the list
fails, for the same reason, and also if too many trees are left. -/
theorem checkFrom_length (forest : Forest) (position : Nat) (tokens : List Token) :
    checkFrom forest.length position tokens =
      match forest.read position tokens with
      | .ok last => if 1 < last.length then .error (.danglingOperands last.length) else .ok ()
      | .error fault => .error fault := by
  induction tokens generalizing forest position with
  | nil => rfl
  | cons token rest ih =>
      cases token with
      | literal byte => exact ih (.literal byte :: forest) (position + 1)
      | operator op =>
          simp only [checkFrom, Forest.read]
          cases found : forest.reduce? op with
          | none => rw [if_pos ((Forest.reduce?_eq_none_iff forest op).1 found)]
          | some reduced =>
              have enough : ¬ forest.length < op.arity := by
                intro short
                rw [(Forest.reduce?_eq_none_iff forest op).2 short] at found
                contradiction
              rw [if_neg enough, ← (Forest.joined_of_reduce? found).length_eq]
              exact ih reduced (position + 1)
      | parenthesis side => rfl

/-- A list passes the check if and only if it can be read as a row of at most
one tree. -/
theorem check_eq_ok_iff_read (tokens : List Token) :
    check tokens = .ok () <->
      exists last : Forest, Forest.read [] 0 tokens = .ok last ∧ ¬ 1 < last.length := by
  have counted := checkFrom_length [] 0 tokens
  rw [List.length_nil] at counted
  rw [check, counted]
  cases outcome : Forest.read [] 0 tokens with
  | error fault =>
      constructor
      · intro passed
        contradiction
      · rintro ⟨last, impossible, _⟩
        contradiction
  | ok last =>
      by_cases many : 1 < last.length
      · simp [many]
      · simp [Nat.le_of_not_lt many]

/-- The postorders that pass the check are those of no tree and of one. -/
theorem check_eq_ok_iff (tokens : List Token) :
    check tokens = .ok () <-> tokens = [] ∨ exists tree : Expression, tree.postorder = tokens := by
  rw [check_eq_ok_iff_read]
  constructor
  · rintro ⟨last, succeeded, few⟩
    have spelled := Forest.postorder_of_read succeeded
    rcases Forest.eq_nil_or_singleton few with empty | ⟨tree, single⟩
    · subst empty
      exact Or.inl spelled.symm
    · subst single
      exact Or.inr ⟨tree, spelled⟩
  · rintro (empty | ⟨tree, spelled⟩)
    · subst empty
      exact ⟨[], rfl, Nat.not_lt_zero 1⟩
    · subst spelled
      exact ⟨[tree], Forest.read_postorder tree 0, Nat.lt_irrefl 1⟩

end Postorder

end BytePattern
