import BytePattern.Operator

namespace BytePattern

/-!
# Tokens

A pattern is read byte by byte, and every byte is a token of its own.  A token
list appears in three roles: as the pattern was typed, with its concatenations
written out, and in postorder.  One type serves all three, because the stages
between them only insert, reorder and drop tokens.

A literal may carry any byte, also one that an operator or a parenthesis
would be written with.  Such a literal cannot come from a pattern, but it can
stand in a token list that was put together by hand.
-/

inductive Parenthesis where
  | opening
  | closing
deriving DecidableEq, Repr

namespace Parenthesis

def byte : Parenthesis -> UInt8
  | opening => 0x28
  | closing => 0x29

def text : Parenthesis -> String
  | opening => "("
  | closing => ")"

end Parenthesis

inductive Token where
  | literal (byte : UInt8)
  | operator (op : Operator)
  | parenthesis (side : Parenthesis)
deriving DecidableEq, Repr

namespace Token

/-- The byte the token is written with. -/
def byte : Token -> UInt8
  | literal byte => byte
  | operator op => op.byte
  | parenthesis side => side.byte

/-- Classifies one byte.  No byte is refused here: the byte of the
concatenation mark yields that operator. -/
def ofByte (byte : UInt8) : Token :=
  if byte = Parenthesis.opening.byte then parenthesis .opening
  else if byte = Parenthesis.closing.byte then parenthesis .closing
  else match Operator.ofByte? byte with
    | some op => operator op
    | none => literal byte

/-- Whether an operand may end with this token. -/
def endsOperand : Token -> Bool
  | literal _ => true
  | operator op => op.isRepetition
  | parenthesis side => side = .closing

/-- Whether an operand may begin with this token. -/
def beginsOperand : Token -> Bool
  | literal _ => true
  | operator _ => false
  | parenthesis side => side = .opening

/-- The token as one character, whose code point is its byte.  Bytes of a
longer UTF-8 sequence are therefore shown separately. -/
def char (token : Token) : Char :=
  Char.ofNat token.byte.toNat

/-- A token list as text, one character for each token. -/
def text (tokens : List Token) : String :=
  String.ofList (tokens.map char)

theorem byte_ofByte (byte : UInt8) : (ofByte byte).byte = byte := by
  unfold ofByte
  split
  · next opens => exact opens.symm
  split
  · next closes => exact closes.symm
  split
  · next operator found => exact Operator.ofByte?_eq_some_iff.1 found
  · rfl

theorem toNat_char (token : Token) : token.char.toNat = token.byte.toNat := by
  have valid : token.byte.toNat.isValidChar := Or.inl (Nat.lt_trans token.byte.toNat_lt (by decide))
  rw [char, Char.ofNat, dif_pos valid]
  rfl

/-- Different bytes are shown as different characters. -/
theorem byte_eq_of_char_eq {first second : Token} (same : first.char = second.char) :
    first.byte = second.byte := by
  apply UInt8.toNat_inj.1
  rw [← toNat_char, ← toNat_char, same]

end Token

end BytePattern
