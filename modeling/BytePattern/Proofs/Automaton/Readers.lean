import Mathlib.Data.Finset.Card
import Mathlib.Data.Finset.Range
import BytePattern.Automaton.Assembly
import BytePattern.Proofs.Automaton.Layout

namespace BytePattern

/-!
# States that read a byte

Every literal makes a state of its own that reads its byte.  All other states are
made by operators and move without reading, and what is attached to a state later
on does not read either.  So however the literals are nested and repeated, a byte
can be read at as many states as it has literals.
-/

namespace Automaton

variable {automaton : Automaton} {byte : UInt8} {id : StateId}

/-- Where a state leads by a byte. -/
def targetOn? (automaton : Automaton) (byte : UInt8) (id : StateId) : Option StateId :=
  (automaton.state? id).bind fun state => state.next? byte

/-- The states at which a byte can be read. -/
def readers (automaton : Automaton) (byte : UInt8) : Finset StateId :=
  (Finset.range automaton.size).filter fun id => (automaton.targetOn? byte id).isSome

theorem mem_readers {state : State} {target : StateId} (found : automaton.state? id = some state)
    (reads : state.next? byte = some target) : id ∈ automaton.readers byte := by
  apply Finset.mem_filter.2
  refine ⟨Finset.mem_range.2 (lt_size_of_state? found), ?_⟩
  rw [targetOn?, found, Option.bind_some, reads]
  rfl

/-- Attaching targets to a state leaves its bytes alone. -/
theorem readers_continueAt (automaton : Automaton) (origin : StateId) (targets : List StateId)
    (byte : UInt8) : (automaton.continueAt origin targets).readers byte = automaton.readers byte := by
  unfold readers
  rw [size_continueAt]
  apply Finset.filter_congr
  intro id _
  have same : (automaton.continueAt origin targets).targetOn? byte id = automaton.targetOn? byte id := by
    unfold targetOn?
    rw [state?_continueAt]
    split
    · cases automaton.state? id <;> rfl
    · rfl
  rw [same]

/-- Of two new states, only the first may read. -/
theorem card_readers_extend (automaton : Automaton) (entry : State) (byte : UInt8) :
    ((automaton.extend entry).readers byte).card =
      (automaton.readers byte).card + if (entry.next? byte).isSome then 1 else 0 := by
  have atExit : (automaton.extend entry).targetOn? byte (automaton.size + 1) = none := by
    have exit := state?_exit_extend automaton entry
    rw [targetOn?]
    exact congrArg (Option.bind · fun state => state.next? byte) exit
  have atEntry : (automaton.extend entry).targetOn? byte automaton.size = entry.next? byte := by
    have entered := state?_entry_extend automaton entry
    rw [targetOn?]
    exact congrArg (Option.bind · fun state => state.next? byte) entered
  have before : (Finset.range automaton.size).filter
      (fun id => ((automaton.extend entry).targetOn? byte id).isSome) = automaton.readers byte := by
    apply Finset.filter_congr
    intro id old
    rw [targetOn?, state?_extend_of_lt _ _ (Finset.mem_range.1 old), targetOn?]
  rw [readers, size_extend, Finset.range_add_one, Finset.filter_insert, atExit, Finset.range_add_one,
    Finset.filter_insert, atEntry, before, if_neg (by decide)]
  split
  · apply Finset.card_insert_of_notMem
    intro member
    exact Finset.notMem_range_self (Finset.mem_of_mem_filter _ member)
  · rfl

end Automaton

namespace Assembly

open Automaton

/-- Taking a token adds a reader of the byte that it is a literal of. -/
theorem card_readers_of_feed {assembly next : Assembly} {position : Nat} {token : Token}
    (fed : assembly.feed position token = .ok next) (byte : UInt8) :
    (next.automaton.readers byte).card =
      (assembly.automaton.readers byte).card + [token].count (.literal byte) := by
  cases token with
  | literal own =>
      cases fed
      rw [stack, Automaton.literal, card_readers_extend, List.count_singleton]
      by_cases same : own = byte
      · subst same
        simp [State.next?]
      · have differs : (byte == own) = false := beq_eq_false_iff_ne.2 (Ne.symm same)
        simp [State.next?, List.lookup_cons, differs, same]
  | operator op =>
      rw [feed] at fed
      split at fed
      · next reduced found =>
        cases fed
        rcases assembly with ⟨automaton, _ | ⟨last, _ | ⟨previous, below⟩⟩⟩ <;> cases op <;>
          cases found <;>
          simp [stack, Automaton.concatenate, Automaton.alternate, Automaton.optional,
            Automaton.plus, Automaton.star, readers_continueAt, card_readers_extend, State.next?]
      · contradiction
  | parenthesis side => cases fed

theorem card_readers_of_feedAll {assembly built : Assembly} {position : Nat} {tokens : List Token}
    (taken : assembly.feedAll position tokens = .ok built) (byte : UInt8) :
    (built.automaton.readers byte).card =
      (assembly.automaton.readers byte).card + tokens.count (.literal byte) := by
  induction tokens generalizing assembly position with
  | nil =>
      cases taken
      rfl
  | cons token rest ih =>
      rw [feedAll] at taken
      split at taken
      · next next fed =>
        rw [ih taken, card_readers_of_feed fed, Nat.add_assoc, ← List.count_append]
        rfl
      · contradiction

end Assembly

namespace Recognizer

/-- A byte can be read at as many states as it has literals. -/
theorem card_readers_of_assemble {tokens : List Token} {recognizer : Recognizer}
    (assembled : assemble tokens = .ok recognizer) (byte : UInt8) :
    (recognizer.automaton.readers byte).card = tokens.count (.literal byte) := by
  rw [assemble] at assembled
  split at assembled
  · next built taken =>
    have counted := Assembly.card_readers_of_feedAll taken byte
    have none : (Automaton.readers Automaton.empty byte).card = 0 := rfl
    change _ = (Automaton.empty.readers byte).card + _ at counted
    rw [none, Nat.zero_add] at counted
    rcases built with ⟨automaton, _ | ⟨root, _ | ⟨next, below⟩⟩⟩
    · cases assembled
      rw [Automaton.void, Automaton.card_readers_extend, counted]
      rfl
    · cases assembled
      exact counted
    · contradiction
  · contradiction

end Recognizer
end BytePattern
