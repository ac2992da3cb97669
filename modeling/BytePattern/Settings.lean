namespace BytePattern

/-!
# Settings

The one choice an author has: whether a parenthesis without its counterpart is
silently dropped, which is the default, or refused.
-/

structure Settings where
  strictParentheses : Bool := false
deriving DecidableEq, Repr

namespace Settings

def lenient : Settings := {}

def strict : Settings := { strictParentheses := true }

/-- Settings packed into a number.  Bit zero asks for strict parentheses, and
every other bit is ignored. -/
def ofBits (bits : Nat) : Settings :=
  { strictParentheses := bits.testBit 0 }

theorem ofBits_eq (bits : Nat) : ofBits bits = if bits % 2 = 1 then strict else lenient := by
  rw [ofBits, Nat.testBit_zero]
  rcases Nat.mod_two_eq_zero_or_one bits with even | odd
  · rw [even]
    rfl
  · rw [odd]
    rfl

end Settings

end BytePattern
