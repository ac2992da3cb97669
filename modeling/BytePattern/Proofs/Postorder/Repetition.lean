import BytePattern.Proofs.Postorder.Forest

namespace BytePattern

/-!
# Repetitions in a postorder

Which operand a repetition is applied to can be seen in the tree, and it can be
seen in the postorder: the operand is the one expression whose tokens end right
before the operator.  The two views are the same.  Reading the list up to the
operator leaves the operand on top of the row, and no later token takes a tree
apart again.
-/

namespace Expression

/-- Somewhere in the expression, an operand of the given kind is repeated, at
least once or any number of times. -/
def Repeats (kind : Expression -> Prop) : Expression -> Prop
  | literal _ => False
  | concat left right | alternate left right => left.Repeats kind ∨ right.Repeats kind
  | optional operand => operand.Repeats kind
  | plus operand | star operand => kind operand ∨ operand.Repeats kind

variable {kind : Expression -> Prop}

/-- Operands of no kind are not repeated. -/
theorem not_repeats (none : forall operand, ¬ kind operand) (tree : Expression) :
    ¬ tree.Repeats kind := by
  induction tree with
  | literal byte => exact id
  | concat left right leftIH rightIH | alternate left right leftIH rightIH =>
      exact fun found => found.elim leftIH rightIH
  | optional operand ih => exact ih
  | plus operand ih | star operand ih => exact fun found => found.elim (none operand) ih

/-- An expression repeats something if one of its tokens says so. -/
theorem repeats_iff_mem (tree : Expression) :
    tree.Repeats (fun _ => True) <->
      .operator .plus ∈ tree.postorder ∨ .operator .star ∈ tree.postorder := by
  induction tree with
  | literal byte => simp [Repeats, postorder]
  | concat left right leftIH rightIH | alternate left right leftIH rightIH =>
      simp only [Repeats, leftIH, rightIH, postorder, List.mem_append, List.mem_singleton,
        Token.operator.injEq, reduceCtorEq, or_false]
      exact or_or_or_comm
  | optional operand ih => simp [Repeats, ih, postorder]
  | plus operand _ | star operand _ => simp [Repeats, postorder]

end Expression

namespace Forest

variable {kind : Expression -> Prop} {forest reduced last : Forest}

/-- Some tree of the row repeats an operand of the given kind. -/
def Repeats (kind : Expression -> Prop) (forest : Forest) : Prop :=
  exists tree, tree ∈ forest ∧ Expression.Repeats kind tree

theorem Joined.repeats {op : Operator} (joined : Joined op forest reduced)
    (found : forest.Repeats kind) : reduced.Repeats kind := by
  rcases found with ⟨tree, member, repeats⟩
  cases joined with
  | concat left right below | alternate left right below =>
      rcases List.mem_cons.1 member with top | deeper
      · exact ⟨_, List.mem_cons_self, Or.inr (top ▸ repeats)⟩
      rcases List.mem_cons.1 deeper with next | further
      · exact ⟨_, List.mem_cons_self, Or.inl (next ▸ repeats)⟩
      · exact ⟨tree, List.mem_cons_of_mem _ further, repeats⟩
  | optional operand below =>
      rcases List.mem_cons.1 member with top | deeper
      · exact ⟨_, List.mem_cons_self, show Expression.Repeats kind operand from top ▸ repeats⟩
      · exact ⟨tree, List.mem_cons_of_mem _ deeper, repeats⟩
  | plus operand below | star operand below =>
      rcases List.mem_cons.1 member with top | deeper
      · exact ⟨_, List.mem_cons_self, Or.inr (top ▸ repeats)⟩
      · exact ⟨tree, List.mem_cons_of_mem _ deeper, repeats⟩

/-- No tree is taken apart by reading on. -/
theorem repeats_of_read {position : Nat} {tokens : List Token}
    (succeeded : forest.read position tokens = .ok last) (found : forest.Repeats kind) :
    last.Repeats kind := by
  induction tokens generalizing forest position with
  | nil =>
      cases succeeded
      exact found
  | cons token rest ih =>
      cases token with
      | literal byte =>
          rcases found with ⟨tree, member, repeats⟩
          exact ih succeeded ⟨tree, List.mem_cons_of_mem _ member, repeats⟩
      | operator op =>
          simp only [read] at succeeded
          split at succeeded
          · next reduced joined => exact ih succeeded ((joined_of_reduce? joined).repeats found)
          · contradiction
      | parenthesis side => contradiction

end Forest

namespace Postorder

variable {kind : Expression -> Prop} {tokens : List Token}

/-- The list holds a repetition, and right before it the tokens of an operand of
the given kind. -/
def Repeated (kind : Expression -> Prop) (tokens : List Token) : Prop :=
  exists (op : Operator) (front : List Token) (operand : Expression) (rest : List Token),
    (op = .plus ∨ op = .star) ∧ tokens = front ++ operand.postorder ++ .operator op :: rest ∧
      kind operand

theorem Repeated.append (repeated : Repeated kind tokens) (before after : List Token) :
    Repeated kind (before ++ tokens ++ after) := by
  rcases repeated with ⟨op, front, operand, rest, among, split, holds⟩
  refine ⟨op, before ++ front, operand, rest ++ after, among, ?_, holds⟩
  simp only [split, List.append_assoc, List.cons_append]

end Postorder

namespace Expression

open Postorder (Repeated)

variable {kind : Expression -> Prop} {tree : Expression}

theorem Repeats.repeated (found : tree.Repeats kind) : Repeated kind tree.postorder := by
  induction tree with
  | literal byte => exact found.elim
  | concat left right leftIH rightIH | alternate left right leftIH rightIH =>
      rcases found with inLeft | inRight
      · simpa only [postorder, List.nil_append, List.append_assoc] using
          (leftIH inLeft).append [] (right.postorder ++ [_])
      · exact (rightIH inRight).append left.postorder [_]
  | optional operand ih => exact (ih found).append [] [_]
  | plus operand ih | star operand ih =>
      rcases found with here | inside
      · exact ⟨_, [], operand, [], by simp, rfl, here⟩
      · exact (ih inside).append [] [_]

/-- The operand of a repetition is the expression whose postorder stands right
before it. -/
theorem repeats_iff_repeated : tree.Repeats kind <-> Repeated kind tree.postorder := by
  constructor
  · exact Repeats.repeated
  · rintro ⟨op, front, operand, rest, among, split, holds⟩
    have whole := Forest.read_postorder tree 0
    rw [split, List.append_assoc] at whole
    rcases Forest.exists_read_of_append whole with ⟨middle, _, later⟩
    rw [Forest.read_postorder_append] at later
    have joins : exists joined : Expression, joined.Repeats kind ∧
        Forest.reduce? (operand :: middle) op = some (joined :: middle) := by
      rcases among with same | same
      · exact ⟨.plus operand, Or.inl holds, same ▸ rfl⟩
      · exact ⟨.star operand, Or.inl holds, same ▸ rfl⟩
    rcases joins with ⟨joined, repeats, reduces⟩
    simp only [Forest.read, reduces] at later
    rcases Forest.repeats_of_read later ⟨joined, List.mem_cons_self, repeats⟩ with
      ⟨other, member, found⟩
    exact List.mem_singleton.1 member ▸ found

end Expression
end BytePattern
