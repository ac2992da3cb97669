import BytePattern.Automaton.Basic

namespace BytePattern
namespace Automaton

/-!
# Paths

A path goes from state to state and spells the bytes that it reads.  Accepting
an input means that a path spells it and ends in a terminal state.  This says
nothing of how such a path is found, and so it is the standard for a search.
-/

inductive Path (automaton : Automaton) : StateId -> List UInt8 -> StateId -> Prop where
  | refl (id : StateId) : Path automaton id [] id
  | epsilon {id target last : StateId} {state : State} {word : List UInt8} :
      automaton.state? id = some state -> target ∈ state.epsilons ->
        Path automaton target word last -> Path automaton id word last
  | edge {id target last : StateId} {state : State} {byte : UInt8} {word : List UInt8} :
      automaton.state? id = some state -> state.next? byte = some target ->
        Path automaton target word last -> Path automaton id (byte :: word) last

/-- Some path from the given state spells the word and ends in acceptance. -/
def AcceptsFrom (automaton : Automaton) (id : StateId) (word : List UInt8) : Prop :=
  exists last state, automaton.Path id word last ∧
    automaton.state? last = some state ∧ state.terminal = true

namespace Path

variable {automaton : Automaton} {first middle last : StateId} {front back : List UInt8}

theorem append (before : automaton.Path first front middle)
    (after : automaton.Path middle back last) : automaton.Path first (front ++ back) last := by
  induction before with
  | refl _ => exact after
  | epsilon found member _ ih => exact .epsilon found member (ih after)
  | edge found reads _ ih => exact .edge found reads (ih after)

end Path

end Automaton
end BytePattern
