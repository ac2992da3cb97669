import BytePattern.Automaton.Assembly
import BytePattern.Failure
import BytePattern.Search.Run

namespace BytePattern
namespace Recognizer

/-!
# Recognizing inputs

A recognizer accepts an input if a search from its entry does.  The search may
also begin at any other state of the automaton, which is how a part of a pattern
is tried by itself.
-/

/-- Searches from any state.  A state that does not exist is a defect. -/
def acceptsFrom (recognizer : Recognizer) (id : StateId) (input : List UInt8) :
    Except Defect Bool :=
  match (Search.start recognizer.automaton id input).verdict with
  | .accepted => .ok true
  | .rejected => .ok false
  | .strayed missing => .error (.stateMissing recognizer.automaton.size missing)

/-- Whether the whole input is accepted from the entry. -/
def accepts (recognizer : Recognizer) (input : List UInt8) : Bool :=
  (Search.start recognizer.automaton recognizer.root.entry input).verdict = .accepted

/-- The verdict on an input, with every byte that is read on the way to it. -/
def traced (recognizer : Recognizer) (input : List UInt8) :
    Search.Verdict × List Search.Consumption :=
  (Search.start recognizer.automaton recognizer.root.entry input).traced

end Recognizer
end BytePattern
