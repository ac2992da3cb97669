import BytePattern.Text.ByteEscape
import BytePattern.Text.Printable

namespace BytePattern
namespace Text

/-!
# Quoted text

Text between double quotes, for messages that repeat a pattern.  The double
quote, the backslash and four control characters are a backslash followed by
one character; the single quote needs none.  Any other character stands for
itself if it is printable, beyond ASCII too.  The rest are shown by their code
point in hexadecimal, without leading zeros and in braces.
-/

/-- The characters that have an escape of their own, with the character that
follows the backslash. -/
def namedQuotes : List (Char × Char) :=
  [('\x00', '0'), ('\x09', 't'), ('\x0a', 'n'), ('\x0d', 'r'), ('\x22', '\x22'), ('\x5c', '\x5c')]

def quoteChar (character : Char) : List Char :=
  match namedQuotes.lookup character with
  | some letter => [backslash, letter]
  | none =>
    if isPrintable character then [character]
    else [backslash, 'u', '\x7b'] ++ Nat.toDigits 16 character.toNat ++ ['\x7d']

def quote (text : String) : String :=
  String.ofList (['\x22'] ++ text.toList.flatMap quoteChar ++ ['\x22'])

end Text
end BytePattern
