import BytePattern.Search.Basic

namespace BytePattern
namespace Search

/-!
# Why a search ends

Abandoning a consumed byte removes marks, so the same state may be entered at
the same position again and again.  No count of the marks alone decreases.

The weight of a search counts instead, for every level that is open, the states
that may still be entered in it, and charges each of them with the most that
entering it can lead to.  Entering a state spends its charge.  Reading a byte
opens a level in which every state may be entered once more, and the charge at
one position is chosen large enough to pay for all of them at the next.  Marks
that are removed by closing a level were never counted outside it.
-/

variable {automaton : Automaton}

/-- What entering a state is charged with, given how many bytes remain. -/
def charge (automaton : Automaton) : Nat -> Nat
  | 0 => automaton.epsilonCount
  | remaining + 1 => automaton.size * charge automaton remaining + automaton.epsilonCount + 2

theorem epsilonCount_le_charge (automaton : Automaton) (remaining : Nat) :
    automaton.epsilonCount <= charge automaton remaining := by
  cases remaining with
  | zero => exact Nat.le_refl _
  | succ remaining =>
    simp only [charge]
    omega

/-- The tasks on an agenda, and the charges of the levels that its retreats
return to. -/
def agendaWeight (marks : Marks automaton.size) (position remaining : Nat) : List Task -> Nat
  | [] => 0
  | .enter _ :: agenda => 1 + agendaWeight marks position remaining agenda
  | .retreat _ :: agenda =>
    1 + marks.closeLevel.unmarked (position - 1) * charge automaton (remaining + 1) +
      agendaWeight marks.closeLevel (position - 1) (remaining + 1) agenda

/-- The agenda and the charges of the innermost level. -/
def weight (search : Search automaton) : Nat :=
  search.marks.unmarked search.position * charge automaton search.remaining.length +
    agendaWeight search.marks search.position search.remaining.length search.agenda

/-- Marking a state in the innermost level leaves the levels around it alone. -/
theorem agendaWeight_insert (marks : Marks automaton.size) (id : Fin automaton.size)
    (place position remaining : Nat) (agenda : List Task) :
    agendaWeight (marks.insert id place) position remaining agenda =
      agendaWeight marks position remaining agenda := by
  induction agenda with
  | nil => rfl
  | cons task agenda ih =>
    cases task with
    | enter id => simp only [agendaWeight, ih]
    | retreat byte => simp only [agendaWeight, Marks.closeLevel_insert]

theorem agendaWeight_fork (marks : Marks automaton.size) (position remaining : Nat)
    (state : State) (agenda : List Task) :
    agendaWeight marks position remaining (fork state agenda) =
      state.epsilons.length + agendaWeight marks position remaining agenda := by
  unfold fork
  induction state.epsilons with
  | nil => simp only [List.map_nil, List.nil_append, List.length_nil, Nat.zero_add]
  | cons target targets ih =>
    simp only [List.map_cons, List.cons_append, agendaWeight, ih, List.length_cons]
    omega

/-- Leaving a marked state is paid for by the charge that marking it spends. -/
theorem weight_lt_of_leave {id : StateId} {state : State} {agenda : List Task}
    {marks : Marks automaton.size} {position : Nat} {remaining : List UInt8}
    {consumed : Option Consumption} {next : Search automaton}
    (few : state.epsilons.length <= automaton.epsilonCount)
    (left : leave id state agenda marks position remaining = .continued consumed next) :
    next.weight <
      (marks.unmarked position + 1) * charge automaton remaining.length +
        (1 + agendaWeight marks position remaining.length agenda) := by
  have forked : weight ⟨fork state agenda, marks, position, remaining⟩ <
      (marks.unmarked position + 1) * charge automaton remaining.length +
        (1 + agendaWeight marks position remaining.length agenda) := by
    have paid := epsilonCount_le_charge automaton remaining.length
    simp only [weight, agendaWeight_fork, Nat.add_mul, Nat.one_mul]
    omega
  cases remaining with
  | nil =>
    simp only [leave] at left
    split at left
    · contradiction
    · cases left
      exact forked
  | cons byte remaining =>
    simp only [leave] at left
    split at left
    · cases left
      have room := Nat.mul_le_mul_right (charge automaton remaining.length)
        (marks.openLevel.unmarked_le (position + 1))
      simp only [weight, agendaWeight, Marks.closeLevel_openLevel, Nat.add_sub_cancel,
        List.length_cons, Nat.add_mul, Nat.one_mul]
      simp only [charge]
      omega
    · cases left
      exact forked

theorem weight_lt_of_step {search next : Search automaton} {consumed : Option Consumption}
    (stepped : search.step = .continued consumed next) : next.weight < search.weight := by
  obtain ⟨agenda, marks, position, remaining⟩ := search
  cases agenda with
  | nil => contradiction
  | cons task agenda =>
    cases task with
    | retreat byte =>
      cases stepped
      simp only [weight, agendaWeight, List.length_cons]
      omega
    | enter id =>
      simp only [step] at stepped
      split at stepped
      · next inside =>
        split at stepped
        · cases stepped
          simp only [weight, agendaWeight]
          omega
        · next absent =>
          have fewer := marks.unmarked_insert ⟨id, inside⟩ position (Bool.eq_false_iff.2 absent)
          have spent := weight_lt_of_leave (automaton.epsilons_length_le inside) stepped
          rw [fewer, agendaWeight_insert] at spent
          simpa only [weight, agendaWeight] using spent
      · contradiction

end Search
end BytePattern
