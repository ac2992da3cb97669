import BytePattern.Postorder.Fault

namespace BytePattern
namespace Postorder

/-!
# Checking a postorder

A postorder is checked by counting: a literal adds one pending expression, and
an operator replaces as many as it takes by a single one.  The count alone
decides, although it stands for a whole row of expression trees, because in
postorder a row of trees determines the list and the list determines the row.

The empty list passes.  It is the postorder of no expression, and its automaton
accepts the empty input only.
-/

/-- Checks the rest of a list, given how many expressions are pending before it
and the position of its first token. -/
def checkFrom (pending position : Nat) : List Token -> Except Fault Unit
  | [] => if 1 < pending then .error (.danglingOperands pending) else .ok ()
  | .literal _ :: rest => checkFrom (pending + 1) (position + 1) rest
  | .operator op :: rest =>
    if pending < op.arity then .error (.missingOperand op position)
    else checkFrom (pending - op.arity + 1) (position + 1) rest
  | .parenthesis _ :: _ => .error (.parenthesis position)

/-- Accepts the postorders of at most one expression. -/
def check (tokens : List Token) : Except Fault Unit :=
  checkFrom 0 0 tokens

end Postorder
end BytePattern
