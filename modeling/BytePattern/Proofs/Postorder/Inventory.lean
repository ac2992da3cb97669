import BytePattern.Proofs.Postorder.Balance

namespace BytePattern
namespace Postorder

/-!
# What a postorder is made of

An operator leaves its group when a weaker one arrives, when the group is closed,
when a closing parenthesis without a group comes, or at the very end.  Wherever it
leaves, it is put into the postorder, and that is the only way in.  A literal does
not wait at all.  So the postorder consists of the tokens of the list without the
parentheses, and the literals among them still stand in the order of the list.

Whether the list is well formed does not matter, and neither do the settings: all
they can do is to refuse a list as a whole.
-/

variable {settings : Settings} {tokens postorder : List Token}

/-- Every token of a list is a parenthesis, or it is one of the postorder. -/
theorem length_arrange_add (tokens : List Token) :
    (arrange tokens).postorder.length + tokens.countP (fun token => token.side?.isSome) =
      tokens.length := by
  rw [(perm_arrange tokens).length_eq, ← List.countP_eq_length_filter, Nat.add_comm,
    List.length_eq_countP_add_countP (fun token => token.side?.isSome)]
  congr 2
  funext token
  cases token.side? <;> rfl

theorem count_operator_arrange (op : Operator) (tokens : List Token) :
    (arrange tokens).postorder.count (.operator op) = tokens.count (.operator op) :=
  countP_arrange (fun _ => rfl) tokens

theorem filter_isLiteral_of_ofInfix (arranged : ofInfix settings tokens = .ok postorder) :
    postorder.filter Token.isLiteral = tokens.filter Token.isLiteral := by
  rw [(ofInfix_eq_ok_iff.1 arranged).2, filter_isLiteral_arrange]

/-- A list that the settings permit keeps all its tokens but the parentheses.  Its
literals keep their order, and each operator occurs as often as before. -/
theorem inventory_of_ofInfix (arranged : ofInfix settings tokens = .ok postorder) :
    (forall side, .parenthesis side ∉ postorder) ∧
      postorder.filter Token.isLiteral = tokens.filter Token.isLiteral ∧
      (forall op, postorder.count (.operator op) = tokens.count (.operator op)) ∧
      postorder.length + tokens.countP (fun token => token.side?.isSome) = tokens.length := by
  refine ⟨parenthesis_not_mem_of_ofInfix arranged, filter_isLiteral_of_ofInfix arranged, ?_, ?_⟩
  · intro op
    rw [(ofInfix_eq_ok_iff.1 arranged).2, count_operator_arrange]
  · rw [(ofInfix_eq_ok_iff.1 arranged).2, length_arrange_add]

/-- A stray closing, an unclosed opening, and a mark that was there before. -/
theorem inventory_of_ofInfix_dropped_on_both_sides :
    exists postorder,
      ofInfix .lenient [.literal 0x61, .parenthesis .closing, .operator .concat,
          .parenthesis .opening, .literal 0x62, .operator .star, .operator .alternate,
          .literal 0x63] = .ok postorder ∧
        (forall side, .parenthesis side ∉ postorder) ∧
        postorder.filter Token.isLiteral = [.literal 0x61, .literal 0x62, .literal 0x63] ∧
        postorder.count (.operator .concat) = 1 ∧ postorder.length + 2 = 8 := by
  have permitted : exists postorder,
      ofInfix .lenient [.literal 0x61, .parenthesis .closing, .operator .concat,
        .parenthesis .opening, .literal 0x62, .operator .star, .operator .alternate,
        .literal 0x63] = .ok postorder := ⟨_, rfl⟩
  rcases permitted with ⟨postorder, arranged⟩
  rcases inventory_of_ofInfix arranged with ⟨bare, literals, operators, length⟩
  exact ⟨postorder, arranged, bare, literals, operators .concat, length⟩

end Postorder
end BytePattern
