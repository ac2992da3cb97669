import BytePattern.Automaton.Basic

namespace BytePattern
namespace Automaton

/-!
# Composing fragments

One construction for each way to form an expression.  Each takes an automaton
with the fragments of the operands in it, and yields the automaton together
with the fragment of the whole.

Until a fragment becomes part of a larger one, nothing leads into its entry and
nothing leads out of its exit.  The exit of an operand is therefore always free
to be continued, and it stops accepting as soon as it is.  Each pair of targets
is listed in the order in which a search tries them.
-/

/-- Accepts the empty input only. -/
def void (automaton : Automaton) : Automaton × Fragment :=
  let whole := automaton.fresh
  (automaton.extend { epsilons := [whole.exit] }, whole)

/-- Reads one byte. -/
def literal (automaton : Automaton) (byte : UInt8) : Automaton × Fragment :=
  let whole := automaton.fresh
  (automaton.extend { edges := [(byte, whole.exit)] }, whole)

/-- The left operand and then the right one.  No state is needed for it. -/
def concatenate (automaton : Automaton) (left right : Fragment) : Automaton × Fragment :=
  (automaton.continueAt left.exit [right.entry], { entry := left.entry, exit := right.exit })

/-- Either operand. -/
def alternate (automaton : Automaton) (left right : Fragment) : Automaton × Fragment :=
  let whole := automaton.fresh
  let entered := automaton.extend { epsilons := [left.entry, right.entry] }
  ((entered.continueAt left.exit [whole.exit]).continueAt right.exit [whole.exit], whole)

/-- The operand or nothing. -/
def optional (automaton : Automaton) (operand : Fragment) : Automaton × Fragment :=
  let whole := automaton.fresh
  let entered := automaton.extend { epsilons := [whole.exit, operand.entry] }
  (entered.continueAt operand.exit [whole.exit], whole)

/-- The operand at least once. -/
def plus (automaton : Automaton) (operand : Fragment) : Automaton × Fragment :=
  let whole := automaton.fresh
  let entered := automaton.extend { epsilons := [operand.entry] }
  (entered.continueAt operand.exit [operand.entry, whole.exit], whole)

/-- The operand any number of times. -/
def star (automaton : Automaton) (operand : Fragment) : Automaton × Fragment :=
  let whole := automaton.fresh
  let entered := automaton.extend { epsilons := [operand.entry, whole.exit] }
  (entered.continueAt operand.exit [operand.entry, whole.exit], whole)

end Automaton
end BytePattern
