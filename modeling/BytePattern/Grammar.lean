import BytePattern.Expression

namespace BytePattern

/-!
# The grammar of patterns

Which byte strings spell an expression.  The grammar has four levels, from the
loosest to the tightest: a sequence of choices, a choice between repetitions, a
repetition of an atom, and an atom, which is a byte or a whole sequence in
parentheses.  A sequence stands above a choice, since concatenation binds more
loosely than alternation.

Seven bytes do not stand for themselves.  They are written out here, so that the
grammar says by itself what a pattern looks like, and does not change with the
table of operators.

Both operators with two operands have the looser level on their left.  This
makes them associate to the left, and gives every pattern at most one tree.
-/

namespace Grammar

inductive Level where
  | sequence
  | choice
  | repetition
  | atom
deriving DecidableEq, Repr

/-- A byte that stands for itself: none of `(`, `)`, `*`, `+`, `.`, `?` and `|`. -/
def IsLiteral (byte : UInt8) : Prop :=
  byte ∉ [0x28, 0x29, 0x2a, 0x2b, 0x2e, 0x3f, 0x7c]

instance (byte : UInt8) : Decidable (IsLiteral byte) :=
  inferInstanceAs (Decidable (byte ∉ _))

/-- The bytes that stand for themselves are those that are read as literals.  This
pins the bytes of the operators and parentheses to the ones of the grammar. -/
theorem isLiteral_iff {byte : UInt8} : IsLiteral byte <-> Token.ofByte byte = .literal byte := by
  constructor
  · intro own
    have apart : forall reserved : UInt8, reserved ∈ [0x28, 0x29, 0x2a, 0x2b, 0x2e, 0x3f, 0x7c] ->
        byte ≠ reserved := fun _ member same => own (same ▸ member)
    rw [Token.ofByte, if_neg (apart _ (by decide)), if_neg (apart _ (by decide))]
    cases found : Operator.ofByte? byte with
    | none => rfl
    | some op =>
      have spelled := Operator.ofByte?_eq_some_iff.1 found
      exact absurd spelled.symm (apart op.byte (by cases op <;> decide))
  · intro read reserved
    simp only [List.mem_cons, List.not_mem_nil, or_false] at reserved
    rcases reserved with rfl | rfl | rfl | rfl | rfl | rfl | rfl <;> exact absurd read (by decide)

/-- How an expression is spelled at a level.  A group stands between `(` and `)`,
`?`, `+` and `*` follow their operand, and `|` stands between two. -/
inductive Spells : Level -> Expression -> List UInt8 -> Prop where
  | literal {byte : UInt8} : IsLiteral byte -> Spells .atom (.literal byte) [byte]
  | group {inner : Expression} {pattern : List UInt8} :
      Spells .sequence inner pattern ->
        Spells .atom inner (0x28 :: (pattern ++ [0x29]))
  | ofAtom {inner : Expression} {pattern : List UInt8} :
      Spells .atom inner pattern -> Spells .repetition inner pattern
  | optional {operand : Expression} {pattern : List UInt8} :
      Spells .repetition operand pattern ->
        Spells .repetition (.optional operand) (pattern ++ [0x3f])
  | plus {operand : Expression} {pattern : List UInt8} :
      Spells .repetition operand pattern ->
        Spells .repetition (.plus operand) (pattern ++ [0x2b])
  | star {operand : Expression} {pattern : List UInt8} :
      Spells .repetition operand pattern ->
        Spells .repetition (.star operand) (pattern ++ [0x2a])
  | ofRepetition {inner : Expression} {pattern : List UInt8} :
      Spells .repetition inner pattern -> Spells .choice inner pattern
  | alternate {left right : Expression} {front back : List UInt8} :
      Spells .choice left front -> Spells .repetition right back ->
        Spells .choice (.alternate left right) (front ++ 0x7c :: back)
  | ofChoice {inner : Expression} {pattern : List UInt8} :
      Spells .choice inner pattern -> Spells .sequence inner pattern
  | concat {left right : Expression} {front back : List UInt8} :
      Spells .sequence left front -> Spells .choice right back ->
        Spells .sequence (.concat left right) (front ++ back)

end Grammar

end BytePattern
