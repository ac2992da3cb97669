import BytePattern.Token.Basic

namespace BytePattern
namespace Postorder

/-!
# Faults of a postorder

What keeps a token list from being the postorder of one expression, namely the
first such thing that a reader from left to right meets.  Checking a list and
assembling an automaton from it both report faults of this type, which makes it
possible to say that they agree.
-/

inductive Fault where
  /-- The operator at this position takes more operands than are left before it. -/
  | missingOperand (op : Operator) (position : Nat)
  /-- This many expressions remain after the last token, and more than one. -/
  | danglingOperands (count : Nat)
  /-- Postorder needs no parentheses, yet there is one at this position. -/
  | parenthesis (position : Nat)
deriving DecidableEq, Repr

end Postorder
end BytePattern
