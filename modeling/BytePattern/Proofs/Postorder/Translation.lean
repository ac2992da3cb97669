import BytePattern.Grammar
import BytePattern.Postorder.Arrangement
import BytePattern.Proofs.Token.Marking

namespace BytePattern

/-!
# Patterns become the postorders of their trees

Where a pattern is spelled at some level of the grammar, the operators that wait
in front of it bind more loosely than that level.  They go on waiting until the
pattern is arranged, and those of the pattern that then still wait lie above
them, since they bind at least as strongly as the level.  This is stated for
whatever waits in front and whatever follows behind, so that it can be put
together along the derivation of the pattern.

A mark is written between two operands, and nowhere else.  A pattern always
begins with a token that may begin an operand and ends with one that may end
one.  The marks of its tree are therefore written exactly where a sequence is
continued by a choice.
-/

namespace Token

theorem ofByte_operator (op : Operator) : ofByte op.byte = operator op := by
  cases op <;> rfl

theorem ofByte_parenthesis (side : Parenthesis) : ofByte side.byte = parenthesis side := by
  cases side <;> rfl

/-- A token list that could stand as an operand. -/
structure Operand (tokens : List Token) : Prop where
  begins : exists first rest, tokens = first :: rest ∧ first.beginsOperand = true
  ends : exists front last, tokens = front ++ [last] ∧ last.endsOperand = true

namespace Operand

variable {front back : List Token}

theorem append_concat (left : Operand front) (back : List Token) {last : Token}
    (ends : last.endsOperand = true) : Operand (front ++ (back ++ [last])) where
  begins := by
    rcases left.begins with ⟨first, rest, split, begins⟩
    exact ⟨first, rest ++ (back ++ [last]), by rw [split, List.cons_append], begins⟩
  ends := ⟨front ++ back, last, (List.append_assoc _ _ _).symm, ends⟩

/-- A mark is written between two operands. -/
theorem marked_append (left : Operand front) (right : Operand back) :
    marked (front ++ back) = marked front ++ operator .concat :: marked back := by
  rcases left.ends with ⟨initial, last, frontSplit, ends⟩
  rcases right.begins with ⟨first, rest, backSplit, begins⟩
  subst frontSplit backSplit
  rw [List.append_assoc, List.singleton_append, marked_append_cons, adjoins, ends, begins]
  rfl

end Operand

end Token

namespace Grammar

/-- How strongly an operator has to bind to stand inside a level. -/
def Level.strength : Level -> Nat
  | sequence => 0
  | choice => 1
  | repetition => 2
  | atom => 3

namespace Spells

variable {level : Level} {expression : Expression} {pattern : List UInt8}

theorem operand (spelled : Spells level expression pattern) :
    Token.Operand (pattern.map Token.ofByte) := by
  induction spelled with
  | literal own =>
      rw [List.map_singleton, isLiteral_iff.1 own]
      exact ⟨⟨_, [], rfl, rfl⟩, ⟨[], _, rfl, rfl⟩⟩
  | @group inner pattern _ _ =>
      rw [List.map_cons, List.map_append, List.map_singleton]
      exact ⟨⟨_, _, rfl, rfl⟩, ⟨.parenthesis .opening :: pattern.map Token.ofByte, _, rfl, rfl⟩⟩
  | optional _ ih | plus _ ih | star _ ih =>
      rw [List.map_append, List.map_singleton]
      exact ih.append_concat [] rfl
  | ofAtom _ ih | ofRepetition _ ih | ofChoice _ ih => exact ih
  | alternate _ _ leftIH rightIH =>
      rcases rightIH.ends with ⟨initial, last, split, ends⟩
      rw [List.map_append, List.map_cons, split, ← List.cons_append]
      exact leftIH.append_concat _ ends
  | concat _ _ leftIH rightIH =>
      rcases rightIH.ends with ⟨initial, last, split, ends⟩
      rw [List.map_append, split]
      exact leftIH.append_concat _ ends

/-- The reserved byte stands in no pattern that is spelled. -/
theorem unreserved (spelled : Spells level expression pattern) : Operator.concat.byte ∉ pattern := by
  induction spelled with
  | @literal byte own =>
      intro member
      have reserved : Operator.concat.byte ∈ [0x28, 0x29, 0x2a, 0x2b, 0x2e, 0x3f, 0x7c] := by decide
      exact own (List.mem_singleton.1 member ▸ reserved)
  | group _ ih => simpa [Operator.byte] using ih
  | optional _ ih | plus _ ih | star _ ih => simpa [Operator.byte] using ih
  | ofAtom _ ih | ofRepetition _ ih | ofChoice _ ih => exact ih
  | alternate _ _ leftIH rightIH => simpa [Operator.byte] using And.intro leftIH rightIH
  | concat _ _ leftIH rightIH => simpa using And.intro leftIH rightIH

end Spells

end Grammar

namespace Postorder

open Grammar (Level Spells)

theorem Arrangement.emit_emit (arrangement : Arrangement) (front back : List Token) :
    (arrangement.emit back).emit front = arrangement.emit (front ++ back) := by
  simp only [emit, List.append_assoc]

/-- An operator releases what binds at least as strongly, and nothing below it. -/
theorem arrangeFrom_operator {op : Operator} {held waiting : List Operator}
    (strong : forall other, other ∈ held -> op.precedence <= other.precedence)
    (weak : forall other, waiting.head? = some other -> other.precedence < op.precedence)
    (enclosing : List (List Operator)) (rest : List Token) :
    arrangeFrom (held ++ waiting) enclosing (.operator op :: rest) =
      (arrangeFrom (op :: waiting) enclosing rest).emit (release held) := by
  have released : forall other, other ∈ held -> decide (op.precedence <= other.precedence) = true :=
    fun other member => decide_eq_true (strong other member)
  have kept : waiting.takeWhile (fun other => decide (op.precedence <= other.precedence)) = [] ∧
      waiting.dropWhile (fun other => decide (op.precedence <= other.precedence)) = waiting := by
    cases waiting with
    | nil => exact ⟨rfl, rfl⟩
    | cons other waiting =>
        have below : ¬ op.precedence <= other.precedence := Nat.not_le_of_lt (weak other rfl)
        simp [below]
  rw [arrangeFrom, List.takeWhile_append_of_pos released, List.dropWhile_append_of_pos released,
    kept.1, kept.2, List.append_nil]

/-- Tokens that contribute a tree: its first tokens are put out, and the operators
that still wait are its last ones.  This holds wherever only operators below the
given strength wait in front. -/
def Contributes (strength : Nat) (tree : Expression) (tokens : List Token) : Prop :=
  exists out held, out ++ release held = tree.postorder ∧
    (forall op, op ∈ held -> strength <= op.precedence) ∧
    forall waiting enclosing rest,
      (forall op, waiting.head? = some op -> op.precedence < strength) ->
      arrangeFrom waiting enclosing (tokens ++ rest) =
        (arrangeFrom (held ++ waiting) enclosing rest).emit out

namespace Contributes

variable {strength : Nat} {tree left right : Expression} {tokens front back : List Token}

theorem literal (byte : UInt8) : Contributes strength (.literal byte) [.literal byte] :=
  ⟨[.literal byte], [], rfl, fun _ member => absurd member List.not_mem_nil, fun _ _ _ _ => rfl⟩

theorem loosen {looser : Nat} (contributes : Contributes strength tree tokens)
    (le : looser <= strength) : Contributes looser tree tokens := by
  rcases contributes with ⟨out, held, spelled, strong, arranged⟩
  refine ⟨out, held, spelled, fun op member => Nat.le_trans le (strong op member), ?_⟩
  intro waiting enclosing rest weak
  exact arranged waiting enclosing rest fun op found => Nat.lt_of_lt_of_le (weak op found) le

/-- A group shields its operators from those around it, and leaves none waiting. -/
theorem group (contributes : Contributes 0 tree tokens) :
    Contributes strength tree
      (.parenthesis .opening :: (tokens ++ [.parenthesis .closing])) := by
  rcases contributes with ⟨out, held, spelled, strong, arranged⟩
  refine ⟨tree.postorder, [], List.append_nil _, fun _ member => absurd member List.not_mem_nil, ?_⟩
  intro waiting enclosing rest _
  rw [List.cons_append, List.append_assoc, arrangeFrom,
    arranged [] (waiting :: enclosing) _ (fun _ found => nomatch found), List.append_nil,
    List.singleton_append, arrangeFrom, Arrangement.emit_emit, spelled]
  rfl

/-- An operator completes the operand that stands before it. -/
theorem arrangeFrom_append_operator {op : Operator} (contributes : Contributes strength tree tokens)
    (own : op.precedence = strength) (waiting : List Operator) (enclosing : List (List Operator))
    (rest : List Token)
    (weak : forall other, waiting.head? = some other -> other.precedence < strength) :
    arrangeFrom waiting enclosing (tokens ++ .operator op :: rest) =
      (arrangeFrom (op :: waiting) enclosing rest).emit tree.postorder := by
  subst own
  rcases contributes with ⟨out, held, spelled, strong, arranged⟩
  rw [arranged waiting enclosing _ weak, arrangeFrom_operator strong weak, Arrangement.emit_emit, spelled]

theorem repeated {op : Operator} {operand : Expression}
    (contributes : Contributes strength operand tokens) (own : op.precedence = strength)
    (last : tree.postorder = operand.postorder ++ [.operator op]) :
    Contributes strength tree (tokens ++ [.operator op]) := by
  refine ⟨operand.postorder, [op], last.symm, ?_, ?_⟩
  · intro other member
    have same : other = op := List.mem_singleton.1 member
    exact Nat.le_of_eq (same ▸ own.symm)
  · intro waiting enclosing rest weak
    rw [List.append_assoc]
    exact contributes.arrangeFrom_append_operator own waiting enclosing rest weak

/-- The right operand stands above the operator, which therefore goes on waiting
below whatever the operand leaves behind. -/
theorem joined {op : Operator} (first : Contributes strength left front)
    (second : Contributes (strength + 1) right back) (own : op.precedence = strength)
    (last : tree.postorder = left.postorder ++ right.postorder ++ [.operator op]) :
    Contributes strength tree (front ++ .operator op :: back) := by
  rcases second with ⟨out, held, spelled, strong, arranged⟩
  refine ⟨left.postorder ++ out, held ++ [op], ?_, ?_, ?_⟩
  · rw [last, ← spelled, release, List.map_append]
    simp only [release, List.append_assoc, List.map_cons, List.map_nil]
  · intro other member
    rcases List.mem_append.1 member with above | below
    · exact Nat.le_of_succ_le (strong other above)
    · have same : other = op := List.mem_singleton.1 below
      exact Nat.le_of_eq (same ▸ own.symm)
  · intro waiting enclosing rest weak
    have below : forall other, (op :: waiting).head? = some other ->
        other.precedence < strength + 1 := by
      intro other found
      cases found
      rw [own]
      exact Nat.lt_succ_self _
    rw [List.append_assoc, List.cons_append, first.arrangeFrom_append_operator own waiting enclosing _ weak,
      arranged (op :: waiting) enclosing rest below, Arrangement.emit_emit, List.append_assoc,
      List.singleton_append]

end Contributes

theorem contributes_of_spells {level : Level} {expression : Expression} {pattern : List UInt8}
    (spelled : Spells level expression pattern) :
    Contributes level.strength expression (Token.marked (pattern.map Token.ofByte)) := by
  induction spelled with
  | literal own =>
      rw [List.map_singleton, Grammar.isLiteral_iff.1 own]
      exact .literal _
  | group _ ih =>
      rw [List.map_cons, List.map_append, List.map_singleton, Token.marked_cons_of_not_ends rfl,
        Token.marked_append_of_not_begins rfl]
      exact ih.group
  | ofAtom _ ih | ofRepetition _ ih | ofChoice _ ih => exact ih.loosen (by decide)
  | optional _ ih | plus _ ih | star _ ih =>
      rw [List.map_append, List.map_singleton, Token.marked_append_of_not_begins rfl]
      exact ih.repeated rfl rfl
  | alternate _ _ leftIH rightIH =>
      rw [List.map_append, List.map_cons, Token.marked_append_of_not_begins rfl,
        Token.marked_cons_of_not_ends rfl]
      exact leftIH.joined rightIH rfl rfl
  | concat left right leftIH rightIH =>
      rw [List.map_append, left.operand.marked_append right.operand]
      exact leftIH.joined rightIH rfl rfl

/-- A pattern is arranged to the postorder of its tree, and nothing is dropped. -/
theorem arrange_of_spells {level : Level} {expression : Expression} {pattern : List UInt8}
    (spelled : Spells level expression pattern) :
    arrange (Token.marked (pattern.map Token.ofByte)) = ⟨expression.postorder, []⟩ := by
  rcases contributes_of_spells spelled with ⟨out, held, same, _, arranged⟩
  have whole := arranged [] [] [] fun _ found => nomatch found
  rw [List.append_nil, List.append_nil] at whole
  rw [arrange, whole, arrangeFrom, finish, Arrangement.emit, same]

end Postorder

end BytePattern
