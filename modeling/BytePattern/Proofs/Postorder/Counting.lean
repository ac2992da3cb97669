import BytePattern.Proofs.Postorder.Conservation
import BytePattern.Proofs.Postorder.Forest

namespace BytePattern

/-!
# What counting says about a postorder

A literal adds an expression to those that are pending, and an operator with two
operands takes one away.  The postorder of one expression thus has one literal
more than it has joins.  Arranging neither makes nor loses a token, so the same
is true of the marked list, and there it means that the list is connected.

No marked list has more than one literal in excess of its joins.  Its arrangement
therefore never leaves two expressions behind: whatever is wrong with a list
shows in an operator that lacks an operand.
-/

theorem Expression.countP_isLiteral_postorder (tree : Expression) :
    tree.postorder.countP Token.isLiteral = tree.postorder.countP Token.isJoin + 1 := by
  induction tree with
  | literal byte => rfl
  | concat left right leftIH rightIH | alternate left right leftIH rightIH =>
      simp [postorder, Token.isLiteral, Token.isJoin, Operator.arity, leftIH, rightIH]
      omega
  | optional operand ih | plus operand ih | star operand ih =>
      simpa [postorder, Token.isLiteral, Token.isJoin, Operator.arity] using ih

namespace Postorder

variable {tokens : List Token}

theorem countP_isLiteral_arrange_marked (tokens : List Token) :
    (arrange (Token.marked tokens)).postorder.countP Token.isLiteral =
      tokens.countP Token.isLiteral := by
  rw [countP_arrange (fun _ => rfl), Token.countP_isLiteral_marked]

theorem countP_isJoin_arrange_marked (tokens : List Token) :
    (arrange (Token.marked tokens)).postorder.countP Token.isJoin =
      (Token.marked tokens).countP Token.isJoin :=
  countP_arrange (fun _ => rfl) _

/-- A list that is arranged to the postorder of some expression is connected. -/
theorem connected_of_arrange_marked {tree : Expression}
    (spelled : (arrange (Token.marked tokens)).postorder = tree.postorder) :
    (Token.parenthesis .opening).Connected tokens := by
  have counted := tree.countP_isLiteral_postorder
  rw [← spelled, countP_isLiteral_arrange_marked, countP_isJoin_arrange_marked] at counted
  exact (Token.connected_iff tokens).2 counted

/-- What is left over at the end is what was pending, together with the literals
that no join has taken. -/
theorem pending_of_checkFrom {pending position count : Nat}
    (left : checkFrom pending position tokens = .error (.danglingOperands count)) :
    1 < count ∧ pending + tokens.countP Token.isLiteral = tokens.countP Token.isJoin + count := by
  induction tokens generalizing pending position with
  | nil =>
      rw [checkFrom] at left
      split at left
      · next many =>
        cases left
        exact ⟨many, by simp⟩
      · contradiction
  | cons token rest ih =>
      cases token with
      | literal byte =>
          rcases ih left with ⟨many, counted⟩
          refine ⟨many, ?_⟩
          rw [List.countP_cons, List.countP_cons]
          simp only [Token.isLiteral, Token.isJoin, if_true, Bool.false_eq_true, if_false]
          omega
      | operator op =>
          simp only [checkFrom] at left
          split at left
          · cases left
          · next enough =>
            rcases ih left with ⟨many, counted⟩
            refine ⟨many, ?_⟩
            rw [List.countP_cons, List.countP_cons]
            cases op <;> simp [Token.isLiteral, Token.isJoin, Operator.arity] at enough counted ⊢ <;> omega
      | parenthesis side => cases left

/-- The arrangement of a marked list never leaves several expressions behind. -/
theorem check_arrange_marked_ne_dangling (tokens : List Token) (count : Nat) :
    check (arrange (Token.marked tokens)).postorder ≠ .error (.danglingOperands count) := by
  intro left
  rcases pending_of_checkFrom left with ⟨many, counted⟩
  rw [countP_isLiteral_arrange_marked, countP_isJoin_arrange_marked] at counted
  have bound := (Token.literals_le_joins (.parenthesis .opening) tokens).1
  rw [Token.marked_cons_of_not_ends rfl] at bound
  simp [Token.isJoin, Token.endsOperand] at bound
  omega

end Postorder
end BytePattern
