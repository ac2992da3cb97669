import BytePattern.Postorder.Arrangement
import BytePattern.Proofs.Token.Marking

namespace BytePattern
namespace Postorder

/-!
# What arranging keeps

Arranging puts every token that is not a parenthesis somewhere, and puts it
there once.  What it drops is determined by the parentheses alone.  Neither fact
depends on the list being well formed, and so they are available before anything
is known of a pattern.
-/

theorem release_append (front back : List Operator) :
    release (front ++ back) = release front ++ release back :=
  List.map_append

theorem postorder_finish (waiting : List Operator) (enclosing : List (List Operator)) :
    (finish waiting enclosing).postorder = release waiting ++ release enclosing.flatten := by
  induction enclosing generalizing waiting with
  | nil => exact (List.append_nil _).symm
  | cons outer enclosing ih =>
      rw [List.flatten_cons, release_append, ← ih outer]
      rfl

theorem dropped_finish (waiting : List Operator) (enclosing : List (List Operator)) :
    (finish waiting enclosing).dropped = List.replicate enclosing.length .opening := by
  induction enclosing generalizing waiting with
  | nil => rfl
  | cons outer enclosing ih => exact congrArg (Parenthesis.opening :: ·) (ih outer)

/-- Operators wait in some order and leave in another.  The groups they wait in
only decide about the order. -/
theorem perm_arrangeFrom (waiting : List Operator) (enclosing : List (List Operator))
    (tokens : List Token) :
    (arrangeFrom waiting enclosing tokens).postorder.Perm
      (release waiting ++ release enclosing.flatten ++
        tokens.filter fun token => token.side?.isNone) := by
  induction tokens generalizing waiting enclosing with
  | nil =>
      rw [arrangeFrom, postorder_finish, List.filter_nil, List.append_nil]
  | cons token rest ih =>
      rcases token with byte | op | _ | _
      · exact ((ih waiting enclosing).cons _).trans List.perm_middle.symm
      · -- The operator joins those that go on waiting, and the others leave.
        let yields := fun (other : Operator) => decide (op.precedence <= other.precedence)
        have kept := ih (op :: waiting.dropWhile yields) enclosing
        have parted : release waiting =
            release (waiting.takeWhile yields) ++ release (waiting.dropWhile yields) := by
          rw [← release_append, List.takeWhile_append_dropWhile]
        have arrived : (release (op :: waiting.dropWhile yields) ++ release enclosing.flatten ++
              rest.filter fun token => token.side?.isNone).Perm
            (release (waiting.dropWhile yields) ++ release enclosing.flatten ++
              (.operator op :: rest.filter fun token => token.side?.isNone)) :=
          List.perm_middle.symm
        have whole := (kept.trans arrived).append_left (release (waiting.takeWhile yields))
        rw [← List.append_assoc, ← List.append_assoc, ← parted] at whole
        exact whole
      · have kept := ih [] (waiting :: enclosing)
        rwa [List.flatten_cons, release_append] at kept
      · cases enclosing with
        | nil =>
            rw [List.append_assoc]
            exact (ih [] []).append_left (release waiting)
        | cons outer enclosing =>
            rw [List.flatten_cons, release_append, List.append_assoc]
            exact (ih outer enclosing).append_left (release waiting)

theorem perm_arrange (tokens : List Token) :
    (arrange tokens).postorder.Perm (tokens.filter fun token => token.side?.isNone) :=
  perm_arrangeFrom [] [] tokens

theorem parenthesis_not_mem_arrange (tokens : List Token) (side : Parenthesis) :
    .parenthesis side ∉ (arrange tokens).postorder := by
  intro member
  have kept := (perm_arrange tokens).mem_iff.1 member
  exact absurd (List.mem_filter.1 kept).2 Bool.false_ne_true

/-- A count that passes over parentheses is the same before and after. -/
theorem countP_arrange {counted : Token -> Bool}
    (blind : forall side, counted (.parenthesis side) = false) (tokens : List Token) :
    (arrange tokens).postorder.countP counted = tokens.countP counted := by
  rw [(perm_arrange tokens).countP_eq, List.countP_filter]
  apply List.countP_congr
  intro token _
  rcases token with byte | op | side
  · simp [Token.side?]
  · simp [Token.side?]
  · simp [blind]

/-! ## The order of the literals -/

theorem filter_isLiteral_release (waiting : List Operator) :
    (release waiting).filter Token.isLiteral = [] := by
  induction waiting with
  | nil => rfl
  | cons op waiting ih => exact ih

/-- A literal never waits.  It is put behind all literals that came before it. -/
theorem filter_isLiteral_arrangeFrom (waiting : List Operator) (enclosing : List (List Operator))
    (tokens : List Token) :
    (arrangeFrom waiting enclosing tokens).postorder.filter Token.isLiteral =
      tokens.filter Token.isLiteral := by
  have released : forall (waiting : List Operator) (rest : List Token),
      (release waiting ++ rest).filter Token.isLiteral = rest.filter Token.isLiteral := by
    intro waiting rest
    rw [List.filter_append, filter_isLiteral_release, List.nil_append]
  induction tokens generalizing waiting enclosing with
  | nil =>
      rw [arrangeFrom, postorder_finish, ← release_append]
      exact filter_isLiteral_release _
  | cons token rest ih =>
      rcases token with byte | op | _ | _
      · exact congrArg (Token.literal byte :: ·) (ih waiting enclosing)
      · exact (released _ _).trans (ih _ enclosing)
      · exact ih [] (waiting :: enclosing)
      · cases enclosing with
        | nil => exact (released waiting _).trans (ih [] [])
        | cons outer enclosing => exact (released waiting _).trans (ih outer enclosing)

theorem filter_isLiteral_arrange (tokens : List Token) :
    (arrange tokens).postorder.filter Token.isLiteral = tokens.filter Token.isLiteral :=
  filter_isLiteral_arrangeFrom [] [] tokens

/-! ## The parentheses that are dropped -/

theorem dropped_arrangeFrom (waiting : List Operator) (enclosing : List (List Operator))
    (tokens : List Token) :
    (arrangeFrom waiting enclosing tokens).dropped =
      Parenthesis.unmatched enclosing.length (tokens.filterMap Token.side?) := by
  induction tokens generalizing waiting enclosing with
  | nil => exact dropped_finish waiting enclosing
  | cons token rest ih =>
      rcases token with byte | op | _ | _
      · exact ih waiting enclosing
      · exact ih _ enclosing
      · exact ih [] (waiting :: enclosing)
      · cases enclosing with
        | nil => exact congrArg (Parenthesis.closing :: ·) (ih [] [])
        | cons outer enclosing => exact ih outer enclosing

theorem dropped_arrange (tokens : List Token) :
    (arrange tokens).dropped = Parenthesis.unmatched 0 (tokens.filterMap Token.side?) :=
  dropped_arrangeFrom [] [] tokens

end Postorder
end BytePattern
