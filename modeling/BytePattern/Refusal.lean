import BytePattern.Token.Basic

namespace BytePattern

/-!
# Refusals

Why a pattern is not a regular expression.  Positions of a reserved byte count
bytes of the pattern.  Positions of an operator count tokens of the postorder,
in which the operator stands after its operands.
-/

inductive Refusal where
  /-- The pattern spells the concatenation mark, which only the library inserts. -/
  | reservedByte (position : Nat)
  /-- A parenthesis without its counterpart.  Lenient settings drop it instead. -/
  | unmatched (side : Parenthesis)
  /-- Fewer operands stand before the operator than it takes. -/
  | missingOperand (operator : Operator) (position : Nat)
  /-- More than one expression is left at the end. -/
  | danglingOperands (count : Nat)
deriving DecidableEq, Repr

namespace Refusal

def message : Refusal -> String
  | reservedByte position =>
    "byte 0x2e at position " ++ toString position ++ " is reserved and cannot be a literal"
  | unmatched side => "unmatched '" ++ side.text ++ "'"
  | missingOperand operator position =>
    "operator " ++ operator.name ++ " at postfix position " ++ toString position ++
      " is missing an operand"
  | danglingOperands count =>
    toString count ++ " sub-expressions are not joined by any operator"

end Refusal

end BytePattern
