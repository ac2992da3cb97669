import BytePattern.Proofs.Postorder.Conservation
import BytePattern.Proofs.Token.Balance

namespace BytePattern
namespace Postorder

/-!
# Groups that are never needed

Under lenient settings a parenthesis that has no counterpart is dropped, and yet
it is not without effect: a closing one releases everything since the start of the
list.  It acts as if the group that it closes had been opened there, and in the
same way an opening one acts as if its group were closed at the end.

A group around the whole list shows why.  It lies below all others and nothing
waits in it, so closing it releases what would be released anyway.  Parentheses
may therefore be added at both ends without any change of the postorder, and the
missing ones may be added in particular, which leaves nothing to be dropped.
-/

/-- The postorder of a token list, or the parenthesis that the settings refuse. -/
def ofInfix (settings : Settings) (tokens : List Token) : Except Refusal (List Token) :=
  ((arrange tokens).under settings).map Arrangement.postorder

theorem ofInfix_lenient (tokens : List Token) :
    ofInfix .lenient tokens = .ok (arrange tokens).postorder := rfl

theorem ofInfix_eq_ok_iff {settings : Settings} {tokens postorder : List Token} :
    ofInfix settings tokens = .ok postorder <->
      (settings.strictParentheses = true -> (arrange tokens).dropped = []) ∧
        postorder = (arrange tokens).postorder := by
  rw [ofInfix]
  rcases arrange tokens with ⟨order, _ | ⟨side, dropped⟩⟩ <;>
    cases strict : settings.strictParentheses <;>
      simp [Arrangement.under, Except.map, strict, eq_comm]

theorem ofInfix_cases (settings : Settings) (tokens : List Token) :
    ofInfix settings tokens = .ok (arrange tokens).postorder ∨
      exists side, ofInfix settings tokens = .error (.unmatched side) := by
  rw [ofInfix, Arrangement.under]
  split
  · exact Or.inr ⟨_, rfl⟩
  · exact Or.inl rfl

theorem dropped_arrange_eq (tokens : List Token) :
    (arrange tokens).dropped =
      List.replicate (Token.missingOpenings tokens) .closing ++
        List.replicate (Token.missingClosings tokens) .opening :=
  (dropped_arrange tokens).trans (Token.unmatched_eq tokens)

/-- Only the first of the dropped parentheses is refused. -/
theorem ofInfix_strict_of_cons {tokens : List Token} {side : Parenthesis} {rest : List Parenthesis}
    (dropped : (arrange tokens).dropped = side :: rest) :
    ofInfix .strict tokens = .error (.unmatched side) := by
  rw [ofInfix, Arrangement.under, dropped]
  rfl

theorem ofInfix_strict_of_missingOpenings {tokens : List Token}
    (lacking : Token.missingOpenings tokens ≠ 0) :
    ofInfix .strict tokens = .error (.unmatched .closing) := by
  rcases Nat.exists_eq_succ_of_ne_zero lacking with ⟨count, missing⟩
  apply ofInfix_strict_of_cons
  rw [dropped_arrange_eq, missing, List.replicate_succ, List.cons_append]

theorem ofInfix_strict_of_missingClosings {tokens : List Token}
    (opened : Token.missingOpenings tokens = 0) (lacking : Token.missingClosings tokens ≠ 0) :
    ofInfix .strict tokens = .error (.unmatched .opening) := by
  rcases Nat.exists_eq_succ_of_ne_zero lacking with ⟨count, missing⟩
  apply ofInfix_strict_of_cons
  rw [dropped_arrange_eq, opened, missing, List.replicate_zero, List.nil_append, List.replicate_succ]

/-- Where nothing is missing, the settings make no difference. -/
theorem ofInfix_eq_of_matched {tokens : List Token} (opened : Token.missingOpenings tokens = 0)
    (closed : Token.missingClosings tokens = 0) (settings : Settings) :
    ofInfix settings tokens = .ok (arrange tokens).postorder := by
  apply ofInfix_eq_ok_iff.2
  rw [dropped_arrange_eq, opened, closed]
  exact ⟨fun _ => rfl, rfl⟩

theorem parenthesis_not_mem_of_ofInfix {settings : Settings} {tokens postorder : List Token}
    (arranged : ofInfix settings tokens = .ok postorder) (side : Parenthesis) :
    .parenthesis side ∉ postorder := by
  rw [(ofInfix_eq_ok_iff.1 arranged).2]
  exact parenthesis_not_mem_arrange tokens side

/-! ## A group around the whole list -/

theorem arrangeFrom_replicate_opening (enclosing : List (List Operator)) (count : Nat)
    (tokens : List Token) :
    arrangeFrom [] enclosing (List.replicate count (.parenthesis .opening) ++ tokens) =
      arrangeFrom [] (List.replicate count [] ++ enclosing) tokens := by
  induction count generalizing enclosing with
  | zero => rfl
  | succ count ih =>
      rw [List.replicate_succ, List.cons_append, arrangeFrom, ih, List.replicate_succ',
        List.append_assoc]
      rfl

/-- Empty groups below all others release nothing, whether they are closed or not. -/
theorem postorder_arrangeFrom_append_replicate (waiting : List Operator)
    (enclosing : List (List Operator)) (count : Nat) (tokens : List Token) :
    (arrangeFrom waiting (enclosing ++ List.replicate count []) tokens).postorder =
      (arrangeFrom waiting enclosing tokens).postorder := by
  induction tokens generalizing waiting enclosing count with
  | nil =>
      have empty : (List.replicate count ([] : List Operator)).flatten = [] := List.flatten_replicate_nil
      rw [arrangeFrom, arrangeFrom, postorder_finish, postorder_finish, List.flatten_append, empty,
        List.append_nil]
  | cons token rest ih =>
      rcases token with byte | op | _ | _
      · exact congrArg (_ ++ ·) (ih waiting enclosing count)
      · exact congrArg (_ ++ ·) (ih _ enclosing count)
      · exact ih [] (waiting :: enclosing) count
      · cases enclosing with
        | cons outer enclosing => exact congrArg (_ ++ ·) (ih outer enclosing count)
        | nil =>
            cases count with
            | zero => rfl
            | succ count => exact congrArg (_ ++ ·) (ih [] [] count)

/-- Closings at the end release what the end would release. -/
theorem postorder_arrangeFrom_append_closing (waiting : List Operator)
    (enclosing : List (List Operator)) (count : Nat) (tokens : List Token) :
    (arrangeFrom waiting enclosing (tokens ++ List.replicate count (.parenthesis .closing))).postorder =
      (arrangeFrom waiting enclosing tokens).postorder := by
  induction tokens generalizing waiting enclosing with
  | nil =>
      rw [List.nil_append, arrangeFrom]
      induction count generalizing waiting enclosing with
      | zero => rfl
      | succ count ih =>
          rw [List.replicate_succ]
          cases enclosing with
          | nil => exact (congrArg (release waiting ++ ·) (ih [] [])).trans (List.append_nil _)
          | cons outer enclosing => exact congrArg (release waiting ++ ·) (ih outer enclosing)
  | cons token rest ih =>
      rcases token with byte | op | _ | _
      · exact congrArg (_ ++ ·) (ih waiting enclosing)
      · exact congrArg (_ ++ ·) (ih _ enclosing)
      · exact ih [] (waiting :: enclosing)
      · cases enclosing with
        | nil => exact congrArg (_ ++ ·) (ih [] [])
        | cons outer enclosing => exact congrArg (_ ++ ·) (ih outer enclosing)

theorem postorder_arrange_enclosed (openings closings : Nat) (tokens : List Token) :
    (arrange (List.replicate openings (.parenthesis .opening) ++ tokens ++
        List.replicate closings (.parenthesis .closing))).postorder =
      (arrange tokens).postorder := by
  rw [arrange, postorder_arrangeFrom_append_closing, arrangeFrom_replicate_opening, List.append_nil]
  exact postorder_arrangeFrom_append_replicate [] [] openings tokens

/-- With its missing parentheses, a list keeps its postorder and loses nothing. -/
theorem arrange_balanced (tokens : List Token) :
    arrange (Token.balanced tokens) = ⟨(arrange tokens).postorder, []⟩ := by
  have dropped : (arrange (Token.balanced tokens)).dropped = [] := by
    rw [dropped_arrange, Token.unmatched_balanced]
  have postorder : (arrange (Token.balanced tokens)).postorder = (arrange tokens).postorder :=
    postorder_arrange_enclosed _ _ tokens
  rw [← dropped, ← postorder]

theorem ofInfix_balanced (settings : Settings) (tokens : List Token) :
    ofInfix settings (Token.balanced tokens) = .ok (arrange tokens).postorder := by
  rw [ofInfix_eq_ok_iff, arrange_balanced]
  exact ⟨fun _ => rfl, rfl⟩

end Postorder
end BytePattern
