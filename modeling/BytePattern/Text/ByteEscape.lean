namespace BytePattern
namespace Text

/-!
# Escaped bytes

A byte is shown by printable ASCII characters only.  The three usual control
characters, both quotation marks and the backslash are a backslash followed by
one character.  Any other printable byte is its own character, and the rest are
a backslash, an `x` and two hexadecimal digits.  As every escape begins with a
backslash and no other byte does, the form of a byte determines the byte.
-/

def backslash : Char := '\x5c'

/-- The bytes that have an escape of their own, with the character that
follows the backslash. -/
def namedEscapes : List (UInt8 × Char) :=
  [(0x09, 't'), (0x0a, 'n'), (0x0d, 'r'), (0x22, '\x22'), (0x27, '\x27'), (0x5c, '\x5c')]

/-- Two lowercase hexadecimal digits. -/
def hexPair (byte : UInt8) : List Char :=
  [Nat.digitChar (byte.toNat / 16), Nat.digitChar (byte.toNat % 16)]

def escapeByte (byte : UInt8) : List Char :=
  match namedEscapes.lookup byte with
  | some letter => [backslash, letter]
  | none =>
    if 0x20 <= byte && byte <= 0x7e then [Char.ofNat byte.toNat]
    else backslash :: 'x' :: hexPair byte

end Text
end BytePattern
