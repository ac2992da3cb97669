import BytePattern.Token.Concatenation

namespace BytePattern

/-!
# Neighbours in a token list

Concatenation marks are decided between neighbours, and so is most of what makes
a pattern well formed.  A token list is *connected* if every two neighbours fit
and the last token ends an operand.  This says nothing of nesting.

Connectedness can be counted.  Between two literals there is always a mark or
an alternation, whatever else stands between them.  A list therefore joins at
least as many operands as it has literals, less one, and it joins exactly as
many if and only if it is connected.  Counting is all that the later stages do,
so this is what tells the lists that pass them from those that do not.
-/

namespace Parenthesis

/-- The parentheses without a counterpart, in the order in which they come to
light, when some are open already.  Those that stay open come to light last. -/
def unmatched (depth : Nat) : List Parenthesis -> List Parenthesis
  | [] => List.replicate depth .opening
  | .opening :: rest => unmatched (depth + 1) rest
  | .closing :: rest =>
      match depth with
      | 0 => .closing :: unmatched 0 rest
      | depth + 1 => unmatched depth rest

theorem unmatched_replicate_opening (depth count : Nat) (rest : List Parenthesis) :
    unmatched depth (List.replicate count .opening ++ rest) = unmatched (depth + count) rest := by
  induction count generalizing depth with
  | zero => rfl
  | succ count ih =>
      rw [List.replicate_succ, List.cons_append, unmatched, ih, Nat.add_right_comm, Nat.add_assoc]

/-- Closings match if and only if there are as many as are open. -/
theorem unmatched_replicate_closing_eq_nil_iff (depth count : Nat) :
    unmatched depth (List.replicate count .closing) = [] <-> depth = count := by
  induction count generalizing depth with
  | zero => simp [unmatched]
  | succ count ih =>
      cases depth with
      | zero => simp [List.replicate_succ, unmatched]
      | succ depth => simpa [List.replicate_succ, unmatched] using ih depth

end Parenthesis

namespace Token

def side? : Token -> Option Parenthesis
  | parenthesis side => some side
  | _ => none

def isLiteral : Token -> Bool
  | literal _ => true
  | _ => false

/-- Whether the token is an operator with two operands. -/
def isJoin : Token -> Bool
  | operator op => op.arity = 2
  | _ => false

/-! ## Where marks are written -/

theorem marked_cons_cons (left right : Token) (rest : List Token) :
    marked (left :: right :: rest) =
      left :: ((if left.adjoins right then [operator .concat] else []) ++ marked (right :: rest)) := by
  rw [marked]
  split <;> rfl

/-- Whether a mark is written between two parts depends on their ends only. -/
theorem marked_append_cons (front : List Token) (left right : Token) (back : List Token) :
    marked (front ++ left :: right :: back) =
      marked (front ++ [left]) ++
        ((if left.adjoins right then [operator .concat] else []) ++ marked (right :: back)) := by
  induction front with
  | nil => exact marked_cons_cons left right back
  | cons first front ih =>
      cases front with
      | nil =>
          simp only [List.cons_append, List.nil_append] at ih ⊢
          rw [marked_cons_cons, ih, marked_cons_cons]
          simp [List.append_assoc]
      | cons second front =>
          simp only [List.cons_append] at ih ⊢
          rw [marked_cons_cons, ih, marked_cons_cons]
          simp [List.append_assoc]

theorem marked_cons_of_not_ends {left : Token} (before : left.endsOperand = false)
    (rest : List Token) : marked (left :: rest) = left :: marked rest := by
  cases rest with
  | nil => rfl
  | cons right rest => simp [marked_cons_cons, adjoins, before]

theorem marked_append_of_not_begins {right : Token} (after : right.beginsOperand = false)
    (front back : List Token) :
    marked (front ++ right :: back) = marked front ++ marked (right :: back) := by
  rcases List.eq_nil_or_concat front with empty | ⟨initial, left, split⟩
  · rw [empty]
    rfl
  · rw [split, List.concat_eq_append, List.append_assoc]
    simp [marked_append_cons, adjoins, after]

/-- Nothing is added to a list but marks. -/
theorem mem_or_eq_of_mem_marked {tokens : List Token} {token : Token} (member : token ∈ marked tokens) :
    token ∈ tokens ∨ token = operator .concat := by
  induction tokens with
  | nil => exact Or.inl member
  | cons left tokens ih =>
      cases tokens with
      | nil => exact Or.inl member
      | cons right rest =>
          rw [marked_cons_cons] at member
          rcases List.mem_cons.1 member with first | behind
          · exact Or.inl (first ▸ List.mem_cons_self)
          rcases List.mem_append.1 behind with mark | later
          · split at mark
            · exact Or.inr (List.mem_singleton.1 mark)
            · contradiction
          · exact (ih later).imp_left (List.mem_cons_of_mem _)

/-- What a view of the list does not see in a mark, marking does not change. -/
theorem filterMap_marked {α : Type} {view : Token -> Option α}
    (blind : view (operator .concat) = none) (tokens : List Token) :
    (marked tokens).filterMap view = tokens.filterMap view := by
  induction tokens with
  | nil => rfl
  | cons left tokens ih =>
      cases tokens with
      | nil => rfl
      | cons right rest =>
          have none : ((if left.adjoins right then [operator .concat] else []).filterMap view) = [] := by
            split <;> simp [blind]
          rw [marked_cons_cons]
          simp only [List.filterMap_cons, List.filterMap_append, none, List.nil_append] at ih ⊢
          rw [ih]

theorem filter_isLiteral_marked (tokens : List Token) :
    (marked tokens).filter isLiteral = tokens.filter isLiteral := by
  have same : (marked tokens).filterMap (Option.guard isLiteral) =
      tokens.filterMap (Option.guard isLiteral) := filterMap_marked rfl tokens
  rwa [List.filterMap_eq_filter] at same

/-- A list with the same literals has each of them behind the same ones. -/
theorem exists_behind_same_literals {tokens others front back : List Token} {byte : UInt8}
    (same : others.filter isLiteral = tokens.filter isLiteral)
    (split : tokens = front ++ literal byte :: back) :
    exists before behind, others = before ++ literal byte :: behind ∧
      before.filter isLiteral = front.filter isLiteral := by
  rw [split, List.filter_append, List.filter_cons_of_pos rfl] at same
  rcases List.filter_eq_append_iff.1 same with ⟨before, later, cut, earlier, literals⟩
  rcases List.filter_eq_cons_iff.1 literals with ⟨skipped, behind, cutLater, none, _, _⟩
  refine ⟨before ++ skipped, behind, ?_, ?_⟩
  · rw [cut, cutLater, List.append_assoc]
  · rw [List.filter_append, earlier, List.filter_eq_nil_iff.2 none, List.append_nil]

theorem countP_isLiteral_marked (tokens : List Token) :
    (marked tokens).countP isLiteral = tokens.countP isLiteral := by
  rw [List.countP_eq_length_filter, List.countP_eq_length_filter, filter_isLiteral_marked]

theorem countP_isJoin_marked_cons_cons (left right : Token) (rest : List Token) :
    (marked (left :: right :: rest)).countP isJoin =
      left.isJoin.toNat + (left.adjoins right).toNat + (marked (right :: rest)).countP isJoin := by
  rw [marked_cons_cons, List.countP_cons, List.countP_append]
  cases own : left.isJoin <;> cases left.adjoins right <;>
    simp [isJoin, Operator.arity] <;> omega

/-! ## Connected lists -/

/-- Behind the given token, every token is one that may follow its neighbour,
and the last one ends an operand. -/
def Connected (before : Token) : List Token -> Prop
  | [] => before.endsOperand = true
  | token :: rest => (before.endsOperand = true ∨ token.beginsOperand = true) ∧ token.Connected rest

/-- A literal ends the operand that it begins, and a join does neither. -/
private theorem isLiteral_add_endsOperand (token : Token) :
    token.isLiteral.toNat + (!token.endsOperand).toNat =
      token.beginsOperand.toNat + token.isJoin.toNat := by
  rcases token with byte | op | side
  · rfl
  · cases op <;> rfl
  · cases side <;> rfl

/-- A list has at most one literal more than it has joins, once marks are
written, and one more only if it is connected.  Both counts begin behind the
given token, which stands for an operand if it ends one. -/
theorem literals_le_joins (before : Token) (rest : List Token) :
    rest.countP isLiteral + before.isJoin.toNat <=
        (marked (before :: rest)).countP isJoin + (!before.endsOperand).toNat ∧
      (rest.countP isLiteral + before.isJoin.toNat =
          (marked (before :: rest)).countP isJoin + (!before.endsOperand).toNat <->
        before.Connected rest) := by
  induction rest generalizing before with
  | nil =>
      have joins : (marked [before]).countP isJoin = before.isJoin.toNat := by
        cases own : before.isJoin <;> simp [marked, own]
      rw [joins, List.countP_nil, Connected]
      cases before.endsOperand <;> simp
  | cons token rest ih =>
      have literals : (token :: rest).countP isLiteral = token.isLiteral.toNat + rest.countP isLiteral := by
        cases own : token.isLiteral <;> simp [own, Nat.add_comm]
      have joins := countP_isJoin_marked_cons_cons before token rest
      have balance := isLiteral_add_endsOperand token
      rcases ih token with ⟨bound, exact⟩
      rw [literals, joins, Connected, ← exact]
      cases ends : before.endsOperand <;> cases begins : token.beginsOperand <;>
        simp only [adjoins, ends, begins, Bool.and_true, Bool.and_false, Bool.not_true, Bool.not_false,
          Bool.toNat_true, Bool.toNat_false, Bool.false_eq_true, or_true, true_or, or_self, true_and,
          false_and, iff_false] at balance ⊢ <;>
        omega

/-- Counting tells whether a whole list is connected.  It is read as if an
opening parenthesis stood before it. -/
theorem connected_iff (tokens : List Token) :
    (parenthesis .opening).Connected tokens <->
      tokens.countP isLiteral = (marked tokens).countP isJoin + 1 := by
  have counted := (literals_le_joins (parenthesis .opening) tokens).2
  rw [marked_cons_of_not_ends rfl] at counted
  exact counted.symm

end Token

end BytePattern
