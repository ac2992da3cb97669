namespace BytePattern

/-!
# Automata

A finite automaton over bytes whose states are numbered in the order in which
they were made.  A state is referred to by its number, so the cycles that a
repetition needs are no obstacle, and a state never moves.

The type does not promise that every number it mentions exists.  `Closed` says
so, and everything that is assembled from tokens satisfies it; the search asks
before it looks a state up.
-/

/-- The number of a state. -/
abbrev StateId := Nat

structure State where
  terminal : Bool := false
  /-- Where each byte leads.  The first entry for a byte counts. -/
  edges : List (UInt8 × StateId) := []
  /-- Where one may go without reading, in the order to be tried. -/
  epsilons : List StateId := []
deriving DecidableEq, Repr

namespace State

/-- The state reached by reading a byte, if the byte can be read here. -/
def next? (state : State) (byte : UInt8) : Option StateId :=
  state.edges.lookup byte

/-- A state that something is attached to: it no longer accepts, and its
further targets are tried after those it already has. -/
def continuedBy (state : State) (targets : List StateId) : State :=
  { state with terminal := false, epsilons := state.epsilons ++ targets }

end State

structure Automaton where
  states : Array State
deriving DecidableEq, Repr

/-- A part of an automaton that is entered at one state and left at another. -/
structure Fragment where
  entry : StateId
  exit : StateId
deriving DecidableEq, Repr

namespace Automaton

def empty : Automaton := { states := #[] }

/-- The number of states, which is also the number of the next one. -/
def size (automaton : Automaton) : Nat :=
  automaton.states.size

def state? (automaton : Automaton) (id : StateId) : Option State :=
  automaton.states[id]?

/-- Every state that is mentioned exists. -/
def Closed (automaton : Automaton) : Prop :=
  forall state, state ∈ automaton.states ->
    (forall edge, edge ∈ state.edges -> edge.2 < automaton.size) ∧
      (forall target, target ∈ state.epsilons -> target < automaton.size)

/-- The fragment that `extend` adds. -/
def fresh (automaton : Automaton) : Fragment :=
  { entry := automaton.size, exit := automaton.size + 1 }

/-- Adds the given entry state, and a terminal exit without moves. -/
def extend (automaton : Automaton) (entry : State) : Automaton :=
  { states := (automaton.states.push entry).push { terminal := true } }

/-- Attaches targets to a state. -/
def continueAt (automaton : Automaton) (id : StateId) (targets : List StateId) : Automaton :=
  { states := automaton.states.modify id fun state => state.continuedBy targets }

/-- The number of moves without reading, over all states. -/
def epsilonCount (automaton : Automaton) : Nat :=
  automaton.states.toList.foldr (fun state count => state.epsilons.length + count) 0

theorem size_extend (automaton : Automaton) (entry : State) :
    (automaton.extend entry).size = automaton.size + 2 := by
  simp only [size, extend, Array.size_push]

theorem size_continueAt (automaton : Automaton) (id : StateId) (targets : List StateId) :
    (automaton.continueAt id targets).size = automaton.size := by
  simp only [size, continueAt, Array.size_modify]

theorem state?_continueAt (automaton : Automaton) (id other : StateId) (targets : List StateId) :
    (automaton.continueAt id targets).state? other =
      if id = other then (automaton.state? other).map fun state => state.continuedBy targets
      else automaton.state? other := by
  simp only [state?, continueAt, Array.getElem?_modify]

theorem state?_extend_of_lt (automaton : Automaton) (entry : State) {id : StateId}
    (old : id < automaton.size) : (automaton.extend entry).state? id = automaton.state? id := by
  have beforeEntry : id ≠ automaton.states.size := Nat.ne_of_lt old
  have beforeExit : id ≠ automaton.states.size + 1 := Nat.ne_of_lt (Nat.lt_succ_of_lt old)
  simp only [state?, extend, Array.getElem?_push, Array.size_push, beforeEntry, beforeExit, if_false]

theorem state?_entry_extend (automaton : Automaton) (entry : State) :
    (automaton.extend entry).state? automaton.fresh.entry = some entry := by
  have beforeExit : automaton.states.size ≠ automaton.states.size + 1 := Nat.ne_of_lt (Nat.lt_succ_self _)
  simp only [state?, extend, fresh, size, Array.getElem?_push, Array.size_push, beforeExit,
    if_false, if_true]

theorem state?_exit_extend (automaton : Automaton) (entry : State) :
    (automaton.extend entry).state? automaton.fresh.exit = some { terminal := true } := by
  simp only [state?, extend, fresh, size, Array.getElem?_push, Array.size_push, if_true]

private theorem length_le_foldr_of_mem {state : State} {states : List State}
    (member : state ∈ states) :
    state.epsilons.length <= states.foldr (fun state count => state.epsilons.length + count) 0 := by
  induction states with
  | nil => contradiction
  | cons head tail ih =>
    rw [List.foldr_cons]
    rcases List.mem_cons.1 member with same | later
    · rw [same]
      exact Nat.le_add_right _ _
    · exact Nat.le_trans (ih later) (Nat.le_add_left _ _)

theorem epsilons_length_le (automaton : Automaton) {id : StateId}
    (inside : id < automaton.states.size) :
    automaton.states[id].epsilons.length <= automaton.epsilonCount :=
  length_le_foldr_of_mem (Array.mem_toList_iff.2 (Array.getElem_mem inside))

end Automaton

end BytePattern
