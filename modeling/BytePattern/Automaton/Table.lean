import BytePattern.Automaton.Basic
import BytePattern.Text.ByteEscape

namespace BytePattern

/-!
# The table of an automaton

One line for each state: its number, padded to three columns, a star if it is
terminal, and then its moves.  A byte stands between quotes and in escaped
form, so neither a quote nor a line break among the bytes can be mistaken for
part of the layout.
-/

namespace State

/-- One move, as a label and the state it leads to. -/
def moveText (label : List Char) (target : StateId) : List Char :=
  [' '] ++ label ++ ['('] ++ Nat.toDigits 10 target ++ [')']

def edgeText (edge : UInt8 × StateId) : List Char :=
  moveText (['\x27'] ++ Text.escapeByte edge.1 ++ ['\x27']) edge.2

def epsilonText (target : StateId) : List Char :=
  moveText ['e', 'p', 's'] target

/-- The line of a state, with its line break. -/
def line (id : StateId) (state : State) : List Char :=
  (Nat.toDigits 10 id).leftpad 3 ' ' ++ [if state.terminal then '*' else ' ', ':'] ++
    state.edges.flatMap edgeText ++ state.epsilons.flatMap epsilonText ++ ['\n']

end State

namespace Automaton

/-- The lines of the given states, which are numbered from `first`. -/
def linesFrom (first : StateId) : List State -> List Char
  | [] => []
  | state :: rest => state.line first ++ linesFrom (first + 1) rest

def table (automaton : Automaton) : String :=
  String.ofList (linesFrom 0 automaton.states.toList)

end Automaton

end BytePattern
