import BytePattern.Automaton.Basic
import BytePattern.Postorder.Fault
import BytePattern.Refusal

namespace BytePattern

/-!
# Failures

A failure is either a refusal, which the author of a pattern can mend, or a
defect, which means that one stage was given what another should never have
passed on.  A pattern only ever causes refusals.  Defects arise when a stage is
used by itself, on tokens or states that were put together by hand.
-/

inductive Defect where
  /-- A list to be checked holds a parenthesis. -/
  | parenthesisChecked
  /-- An operator met too few fragments. -/
  | operandUnavailable
  /-- A list to be assembled holds a parenthesis. -/
  | parenthesisAssembled (tokens : List Token)
  /-- Assembling a list left more than one fragment. -/
  | fragmentsLeft (count : Nat) (tokens : List Token)
  /-- A search was sent to a state beyond the last. -/
  | stateMissing (size : Nat) (id : StateId)
deriving DecidableEq, Repr

inductive Failure where
  | refused (refusal : Refusal)
  | defect (breach : Defect)
deriving DecidableEq, Repr

namespace Defect

def message : Defect -> String
  | parenthesisChecked =>
    "internal error: entered unreachable code: parentheses never survive postfix translation"
  | operandUnavailable => "internal error: operator without operand in postfix stream"
  | parenthesisAssembled tokens =>
    "internal error: parenthesis in postfix stream " ++ Token.text tokens
  | fragmentsLeft count tokens =>
    "internal error: " ++ toString count ++ " fragments left after " ++ Token.text tokens
  | stateMissing size id =>
    "index out of bounds: the len is " ++ toString size ++ " but the index is " ++ toString id

end Defect

namespace Postorder
namespace Fault

/-- What a fault means to someone who had a list checked. -/
def inCheck : Fault -> Failure
  | missingOperand op position => .refused (.missingOperand op position)
  | danglingOperands count => .refused (.danglingOperands count)
  | parenthesis _ => .defect .parenthesisChecked

/-- What a fault means to someone who had the given list assembled. -/
def inAssembly (tokens : List Token) : Fault -> Defect
  | missingOperand _ _ => .operandUnavailable
  | danglingOperands count => .fragmentsLeft count tokens
  | parenthesis _ => .parenthesisAssembled tokens

end Fault
end Postorder

end BytePattern
