import BytePattern.Automaton.Basic
import BytePattern.Search.Marks

namespace BytePattern

/-!
# Searching an automaton

A search looks for a path that spells a whole input and ends in a terminal
state.  It goes depth first and keeps an agenda of what remains to be done.
Entering a state that can read the next byte consumes that byte; its other
moves are then not tried, as no state of an assembled automaton has any.  In
every other state the moves without reading go to the front of the agenda.

Behind each consumed byte the agenda holds a task to retreat.  It is reached
when everything after the byte has failed, gives the byte back to the input and
closes the level of marks that was opened for it.

The search is given as single steps, so that what one step keeps, every search
keeps.  Running the steps is the subject of `Search.Run`.
-/

namespace Search

inductive Task where
  | enter (id : StateId)
  /-- Give back this byte, since nothing behind it has led to acceptance. -/
  | retreat (byte : UInt8)
deriving DecidableEq, Repr

/-- One byte that was read on the way from a state to another.  The position is
the number of bytes before it. -/
structure Consumption where
  source : StateId
  byte : UInt8
  target : StateId
  position : Nat
deriving DecidableEq, Repr

inductive Verdict where
  | accepted
  | rejected
  /-- The search was sent to a state that does not exist. -/
  | strayed (id : StateId)
deriving DecidableEq, Repr

end Search

/-- A search in progress: what remains to be done, what is marked, how many
bytes are consumed, and the bytes that are left. -/
structure Search (automaton : Automaton) where
  agenda : List Search.Task
  marks : Search.Marks automaton.size
  position : Nat
  remaining : List UInt8

namespace Search

variable {automaton : Automaton}

inductive Step (automaton : Automaton) where
  | finished (verdict : Verdict)
  | continued (consumed : Option Consumption) (next : Search automaton)

/-- A search for an accepting path from the given state. -/
def start (automaton : Automaton) (id : StateId) (input : List UInt8) : Search automaton :=
  { agenda := [.enter id], marks := .empty automaton.size, position := 0, remaining := input }

/-- Puts the moves without reading at the front of the agenda. -/
def fork (state : State) (agenda : List Task) : List Task :=
  state.epsilons.map .enter ++ agenda

/-- What follows from having marked a state. -/
def leave (id : StateId) (state : State) (agenda : List Task) (marks : Marks automaton.size)
    (position : Nat) : List UInt8 -> Step automaton
  | [] =>
    if state.terminal then .finished .accepted
    else .continued none ⟨fork state agenda, marks, position, []⟩
  | byte :: remaining =>
    match state.next? byte with
    | some target =>
      .continued (some ⟨id, byte, target, position⟩)
        ⟨.enter target :: .retreat byte :: agenda, marks.openLevel, position + 1, remaining⟩
    | none => .continued none ⟨fork state agenda, marks, position, byte :: remaining⟩

/-- Does the first thing on the agenda. -/
def step (search : Search automaton) : Step automaton :=
  match search with
  | ⟨[], _, _, _⟩ => .finished .rejected
  | ⟨.retreat byte :: agenda, marks, position, remaining⟩ =>
    .continued none ⟨agenda, marks.closeLevel, position - 1, byte :: remaining⟩
  | ⟨.enter id :: agenda, marks, position, remaining⟩ =>
    if inside : id < automaton.size then
      if marks.contains ⟨id, inside⟩ position then
        .continued none ⟨agenda, marks, position, remaining⟩
      else
        leave id automaton.states[id] agenda (marks.insert ⟨id, inside⟩ position) position remaining
    else .finished (.strayed id)

end Search

end BytePattern
