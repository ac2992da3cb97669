import BytePattern.Proofs.Postorder.Translation

namespace BytePattern

/-!
# Bytes in their places

Whether a pattern has all its operands can be seen from its bytes two at a time.
The first byte must begin an operand and the last one must end one.  In between,
nothing is asked of a byte that ends an operand, since whatever may follow it is
either joined to it by a mark or attached to it.  The others are the opening
parenthesis and the alternation, and an operand must begin right behind them.

Nothing of this mentions nesting.  It is the condition of being connected, said
of bytes and without the marks.
-/

namespace Token

/-- A list is connected if and only if an operand begins right behind every token
that does not end one.  The last token has nothing behind it, and so it ends one. -/
theorem connected_iff_followed (before : Token) (rest : List Token) :
    before.Connected rest <->
      forall front left back, before :: rest = front ++ left :: back ->
        left.endsOperand = false ->
          exists next, back.head? = some next ∧ next.beginsOperand = true := by
  induction rest generalizing before with
  | nil =>
      rw [Connected]
      constructor
      · intro ends front left back split unfinished
        have same : left = before := by
          have member : left ∈ [before] := split ▸ List.mem_append_right front List.mem_cons_self
          exact List.mem_singleton.1 member
        rw [same, ends] at unfinished
        contradiction
      · intro followed
        cases ends : before.endsOperand with
        | true => rfl
        | false =>
            rcases followed [] before [] rfl ends with ⟨next, impossible, _⟩
            contradiction
  | cons token rest ih =>
      rw [Connected, ih]
      constructor
      · rintro ⟨fits, followed⟩ front left back split unfinished
        rcases List.cons_eq_append_iff.1 split with ⟨_, whole⟩ | ⟨later, _, onward⟩
        · cases whole
          exact ⟨token, rfl, fits.resolve_left (Bool.eq_false_iff.1 unfinished)⟩
        · exact followed later left back onward unfinished
      · intro followed
        constructor
        · cases ends : before.endsOperand with
          | true => exact Or.inl rfl
          | false =>
              rcases followed [] before (token :: rest) rfl ends with ⟨next, found, begins⟩
              cases found
              exact Or.inr begins
        · intro front left back split unfinished
          exact followed (before :: front) left back (congrArg (before :: ·) split) unfinished

/-- The three kinds of bytes. -/
theorem ofByte_cases (byte : UInt8) :
    ofByte byte = literal byte ∨ (exists op : Operator, byte = op.byte ∧ ofByte byte = operator op) ∨
      exists side : Parenthesis, byte = side.byte ∧ ofByte byte = parenthesis side := by
  have spelled := byte_ofByte byte
  cases token : ofByte byte with
  | literal own =>
      rw [token] at spelled
      exact Or.inl (congrArg literal spelled)
  | operator op =>
      rw [token] at spelled
      exact Or.inr (Or.inl ⟨op, spelled.symm, rfl⟩)
  | parenthesis side =>
      rw [token] at spelled
      exact Or.inr (Or.inr ⟨side, spelled.symm, rfl⟩)

end Token

namespace Grammar

/-- A byte with which an operand begins. -/
def Begins (byte : UInt8) : Prop :=
  byte = Parenthesis.opening.byte ∨ IsLiteral byte

instance (byte : UInt8) : Decidable (Begins byte) :=
  inferInstanceAs (Decidable (_ ∨ _))

/-- A byte with which an operand ends. -/
def Ends (byte : UInt8) : Prop :=
  IsLiteral byte ∨ (exists op : Operator, op.isRepetition = true ∧ byte = op.byte) ∨
    byte = Parenthesis.closing.byte

/-- The pattern begins and ends with an operand, and another operand begins right
behind every opening parenthesis and every alternation. -/
structure WellPlaced (pattern : List UInt8) : Prop where
  first : exists byte, pattern.head? = some byte ∧ Begins byte
  last : exists byte, pattern.getLast? = some byte ∧ Ends byte
  followed : forall front byte back, pattern = front ++ byte :: back ->
    byte = Parenthesis.opening.byte ∨ byte = Operator.alternate.byte ->
      exists next, back.head? = some next ∧ Begins next

theorem begins_iff (byte : UInt8) : Begins byte <-> (Token.ofByte byte).beginsOperand = true := by
  constructor
  · rintro (same | own)
    · rw [same]
      rfl
    · rw [isLiteral_iff.1 own]
      rfl
  · intro begins
    rcases Token.ofByte_cases byte with own | ⟨op, _, token⟩ | ⟨side, same, token⟩
    · exact Or.inr (isLiteral_iff.2 own)
    · rw [token] at begins
      contradiction
    · rw [token] at begins
      cases side with
      | opening => exact Or.inl same
      | closing => contradiction

theorem ends_iff (byte : UInt8) : Ends byte <-> (Token.ofByte byte).endsOperand = true := by
  constructor
  · rintro (own | ⟨op, repetition, same⟩ | same)
    · rw [isLiteral_iff.1 own]
      rfl
    · rw [same, Token.ofByte_operator]
      exact repetition
    · rw [same]
      rfl
  · intro ends
    rcases Token.ofByte_cases byte with own | ⟨op, same, token⟩ | ⟨side, same, token⟩
    · exact Or.inl (isLiteral_iff.2 own)
    · rw [token] at ends
      exact Or.inr (Or.inl ⟨op, ends, same⟩)
    · rw [token] at ends
      cases side with
      | opening => contradiction
      | closing => exact Or.inr (Or.inr same)

/-- Apart from the reserved one, two bytes leave an operand unfinished. -/
theorem unfinished_iff {byte : UInt8} (unreserved : byte ≠ Operator.concat.byte) :
    (Token.ofByte byte).endsOperand = false <->
      byte = Parenthesis.opening.byte ∨ byte = Operator.alternate.byte := by
  constructor
  · intro unfinished
    rcases Token.ofByte_cases byte with own | ⟨op, same, token⟩ | ⟨side, same, token⟩
    · rw [own] at unfinished
      contradiction
    · rw [token] at unfinished
      cases op with
      | concat => exact absurd same unreserved
      | alternate => exact Or.inr same
      | optional | plus | star => contradiction
    · rw [token] at unfinished
      cases side with
      | opening => exact Or.inl same
      | closing => contradiction
  · rintro (same | same)
    · rw [same]
      rfl
    · rw [same]
      rfl

/-- The tokens of a byte list, cut where the list is cut. -/
private theorem exists_cut {pattern : List UInt8} {front back : List Token} {left : Token}
    (split : pattern.map Token.ofByte = front ++ left :: back) :
    exists before byte after, pattern = before ++ byte :: after ∧ Token.ofByte byte = left ∧
      after.map Token.ofByte = back := by
  rcases List.map_eq_append_iff.1 split with ⟨before, rest, whole, _, onward⟩
  rcases List.map_eq_cons_iff.1 onward with ⟨byte, after, same, token, later⟩
  exact ⟨before, byte, after, same ▸ whole, token, later⟩

private theorem exists_begins_head?_iff (pattern : List UInt8) :
    (exists next, (pattern.map Token.ofByte).head? = some next ∧ next.beginsOperand = true) <->
      exists byte, pattern.head? = some byte ∧ Begins byte := by
  cases pattern with
  | nil => simp
  | cons byte rest => simp [begins_iff]

theorem wellPlaced_iff_connected {pattern : List UInt8}
    (unreserved : Operator.concat.byte ∉ pattern) :
    WellPlaced pattern <-> (Token.parenthesis .opening).Connected (pattern.map Token.ofByte) := by
  rw [Token.connected_iff_followed]
  constructor
  · intro placed front left back split unfinished
    cases front with
    | nil =>
        cases split
        exact (exists_begins_head?_iff pattern).2 placed.first
    | cons outer front =>
        rcases exists_cut (List.cons.inj split).2 with ⟨before, byte, after, whole, token, later⟩
        have own : byte ≠ Operator.concat.byte := by
          intro same
          exact unreserved (whole ▸ same ▸ List.mem_append_right before List.mem_cons_self)
        rw [← token] at unfinished
        rw [← later]
        exact (exists_begins_head?_iff after).2
          (placed.followed before byte after whole ((unfinished_iff own).1 unfinished))
  · intro followed
    have behind : forall front byte back, pattern = front ++ byte :: back ->
        (Token.ofByte byte).endsOperand = false ->
          exists next, back.head? = some next ∧ Begins next := by
      intro front byte back whole unfinished
      apply (exists_begins_head?_iff back).1
      apply followed (.parenthesis .opening :: front.map Token.ofByte) (Token.ofByte byte) _ ?_ unfinished
      rw [whole, List.map_append, List.map_cons, List.cons_append]
    have first := (exists_begins_head?_iff pattern).1
      (followed [] (.parenthesis .opening) (pattern.map Token.ofByte) rfl rfl)
    refine ⟨first, ?_, ?_⟩
    · rcases List.eq_nil_or_concat pattern with empty | ⟨front, byte, whole⟩
      · rw [empty] at first
        rcases first with ⟨_, impossible, _⟩
        contradiction
      · rw [List.concat_eq_append] at whole
        refine ⟨byte, by rw [whole, List.getLast?_concat], (ends_iff byte).2 ?_⟩
        cases ends : (Token.ofByte byte).endsOperand with
        | true => rfl
        | false =>
            rcases behind front byte [] whole ends with ⟨_, impossible, _⟩
            contradiction
    · intro front byte back whole kind
      have own : byte ≠ Operator.concat.byte := by
        rcases kind with same | same <;> rw [same] <;> decide
      exact behind front byte back whole ((unfinished_iff own).2 kind)

end Grammar
end BytePattern
