import BytePattern.Automaton.Composition
import BytePattern.Postorder.Fault

namespace BytePattern

/-!
# Assembling an automaton from a postorder

The tokens are taken from left to right, and a stack holds the fragments of the
expressions that are complete so far, the latest on top.  A literal adds a
fragment, and an operator replaces its operands by the fragment of the whole.
An operand that was completed earlier is the left one.

All fragments lie in one automaton.  Its states are numbered as they are made,
so the tokens alone determine every number.
-/

/-- An automaton with the fragment through which it is to be read. -/
structure Recognizer where
  automaton : Automaton
  root : Fragment
deriving DecidableEq, Repr

/-- An automaton in the making. -/
structure Assembly where
  automaton : Automaton := .empty
  fragments : List Fragment := []
deriving DecidableEq, Repr

namespace Assembly

open Postorder (Fault)

/-- Stacks a new fragment on those that were left in place. -/
def stack (made : Automaton × Fragment) (below : List Fragment) : Assembly :=
  { automaton := made.1, fragments := made.2 :: below }

/-- Applies an operator to the topmost fragments, if there are enough. -/
def reduce? (assembly : Assembly) (op : Operator) : Option Assembly :=
  match op, assembly with
  | .concat, ⟨automaton, right :: left :: below⟩ =>
    some (stack (automaton.concatenate left right) below)
  | .alternate, ⟨automaton, right :: left :: below⟩ =>
    some (stack (automaton.alternate left right) below)
  | .optional, ⟨automaton, operand :: below⟩ => some (stack (automaton.optional operand) below)
  | .plus, ⟨automaton, operand :: below⟩ => some (stack (automaton.plus operand) below)
  | .star, ⟨automaton, operand :: below⟩ => some (stack (automaton.star operand) below)
  | _, _ => none

/-- Takes the token at the given position. -/
def feed (assembly : Assembly) (position : Nat) : Token -> Except Fault Assembly
  | .literal byte => .ok (stack (assembly.automaton.literal byte) assembly.fragments)
  | .operator op =>
    match assembly.reduce? op with
    | some reduced => .ok reduced
    | none => .error (.missingOperand op position)
  | .parenthesis _ => .error (.parenthesis position)

/-- Takes the remaining tokens, the first of which stands at the given position. -/
def feedAll (assembly : Assembly) (position : Nat) : List Token -> Except Fault Assembly
  | [] => .ok assembly
  | token :: rest =>
    match assembly.feed position token with
    | .ok fed => fed.feedAll (position + 1) rest
    | .error fault => .error fault

/-- The one fragment that is left.  No fragment at all means that there was no
token, and then the empty input is all there is to accept. -/
def finish (assembly : Assembly) : Except Fault Recognizer :=
  match assembly with
  | ⟨automaton, []⟩ => .ok { automaton := automaton.void.1, root := automaton.void.2 }
  | ⟨automaton, [root]⟩ => .ok { automaton := automaton, root := root }
  | ⟨_, fragments⟩ => .error (.danglingOperands fragments.length)

end Assembly

/-- The automaton of a postorder. -/
def Recognizer.assemble (tokens : List Token) : Except Postorder.Fault Recognizer :=
  match Assembly.feedAll {} 0 tokens with
  | .ok assembly => assembly.finish
  | .error fault => .error fault

end BytePattern
