import Mathlib.Tactic.Ring
import BytePattern.Proofs.Automaton.Construction
import BytePattern.Proofs.Search.Safety
import BytePattern.Recognizer

namespace BytePattern
namespace Search

/-!
# Every search ends

A search repeats its step for as long as there is something to do, and nothing
in the step says for how long that is.  A retreat takes marks away again, so a
state that was entered at a position may be entered there once more, and it may
read the same byte in the same way.

Here the steps are counted from the outside, by a number that knows nothing of
the search.  The weight of the search bounds that number, and the charges of
which the weight consists are bounded by a power: every byte of the input
multiplies the work by at most the number of states and one.
-/

variable {automaton : Automaton} {search next : Search automaton}

/-- What the search has become after this many steps, if it goes on for as long. -/
def after? (search : Search automaton) : Nat -> Option (Search automaton)
  | 0 => some search
  | count + 1 =>
      match search.step with
      | .finished _ => none
      | .continued _ next => next.after? count

/-- The search goes on for no more steps than the bound, and then says whether
the input is accepted.  That is its verdict. -/
def AnswersWithin (search : Search automaton) (bound : Nat) : Prop :=
  exists count last, count <= bound ∧ search.after? count = some last ∧
    last.step = .finished search.verdict ∧
    (search.verdict = .accepted ∨ search.verdict = .rejected)

theorem AnswersWithin.mono {bound larger : Nat} (answers : search.AnswersWithin bound)
    (grown : bound <= larger) : search.AnswersWithin larger := by
  rcases answers with ⟨count, last, few, reached, answered⟩
  exact ⟨count, last, few.trans grown, reached, answered⟩

theorem after?_succ_of_continued {consumed : Option Consumption}
    (stepped : search.step = .continued consumed next) (count : Nat) :
    search.after? (count + 1) = next.after? count := by
  rw [after?, stepped]

/-- Every step spends a part of the weight, so there are no more steps than
that. -/
theorem exists_after?_finished (search : Search automaton) :
    exists count last, count <= search.weight ∧ search.after? count = some last ∧
      last.step = .finished search.verdict := by
  cases stepped : search.step with
  | finished verdict =>
      have same : search.verdict = verdict := by rw [Search.verdict, run_of_finished _ _ stepped]
      exact ⟨0, search, Nat.zero_le _, rfl, same ▸ stepped⟩
  | continued consumed next =>
      have same : search.verdict = next.verdict := by rw [Search.verdict, run_of_continued _ _ stepped]; rfl
      have spent := weight_lt_of_step stepped
      rcases exists_after?_finished next with ⟨count, last, few, reached, finished⟩
      refine ⟨count + 1, last, Nat.succ_le_of_lt (Nat.lt_of_le_of_lt few spent), ?_, same ▸ finished⟩
      rw [after?_succ_of_continued stepped, reached]
termination_by search.weight
decreasing_by exact weight_lt_of_step stepped

/-- A search that never strays has an answer. -/
theorem Inside.answersWithin_weight (inside : search.Inside) (closed : automaton.Closed) :
    search.AnswersWithin search.weight := by
  rcases exists_after?_finished search with ⟨count, last, few, reached, finished⟩
  refine ⟨count, last, few, reached, finished, ?_⟩
  cases found : search.verdict with
  | accepted => exact Or.inl rfl
  | rejected => exact Or.inr rfl
  | strayed id => exact absurd found (inside.verdict_ne_strayed closed id)

/-! ## The weight of a whole search -/

/-- Every byte that remains multiplies the charge by the number of states and
one. -/
theorem charge_le (automaton : Automaton) (remaining : Nat) :
    charge automaton remaining <=
      (automaton.epsilonCount + 2) * (automaton.size + 1) ^ remaining := by
  induction remaining with
  | zero =>
      rw [charge, Nat.pow_zero, Nat.mul_one]
      exact Nat.le_add_right _ _
  | succ remaining ih =>
      have once : 1 <= (automaton.size + 1) ^ remaining := Nat.one_le_pow _ _ (Nat.succ_pos _)
      have several := Nat.mul_le_mul_left automaton.size ih
      have single := Nat.mul_le_mul_left (automaton.epsilonCount + 2) once
      calc charge automaton (remaining + 1)
          = automaton.size * charge automaton remaining + (automaton.epsilonCount + 2) * 1 := by
            rw [charge, Nat.mul_one, Nat.add_assoc]
        _ <= automaton.size * ((automaton.epsilonCount + 2) * (automaton.size + 1) ^ remaining) +
              (automaton.epsilonCount + 2) * (automaton.size + 1) ^ remaining :=
            Nat.add_le_add several single
        _ = (automaton.epsilonCount + 2) * (automaton.size + 1) ^ (remaining + 1) := by ring

/-- A whole search spends less than one byte more would be charged with. -/
theorem weight_start_le (automaton : Automaton) (id : StateId) (input : List UInt8) :
    (start automaton id input).weight <=
      (automaton.epsilonCount + 2) * (automaton.size + 1) ^ (input.length + 1) := by
  have unmarked := Nat.mul_le_mul_right (charge automaton input.length)
    ((Marks.empty automaton.size).unmarked_le 0)
  have spent : (start automaton id input).weight <= charge automaton (input.length + 1) := by
    simp only [weight, start, agendaWeight, charge]
    omega
  exact spent.trans (charge_le automaton (input.length + 1))

end Search

namespace Recognizer

open Search (start)

/-- In every automaton that mentions no state but its own, whatever cycles it
has, a search from any state answers after finitely many steps, and so it does
in every automaton that is assembled.  Marks are no obstacle to entering a
state again: there are searches that read the same byte between the same states
at the same position more than once. -/
theorem search_answers_within :
    (forall (tokens : List Token) (recognizer : Recognizer),
      assemble tokens = .ok recognizer -> recognizer.automaton.Closed) ∧
    (forall automaton : Automaton, automaton.Closed -> forall id : StateId, id < automaton.size ->
      forall input : List UInt8,
        (start automaton id input).AnswersWithin
          ((automaton.epsilonCount + 2) * (automaton.size + 1) ^ (input.length + 1))) ∧
    exists (tokens : List Token) (recognizer : Recognizer) (input : List UInt8),
      assemble tokens = .ok recognizer ∧
        ¬ (start recognizer.automaton recognizer.root.entry input).trail.Nodup := by
  refine ⟨fun tokens recognizer assembled => (tidy_of_assemble assembled).closed, ?_, ?_⟩
  · intro automaton closed id inside input
    have answers := (Search.inside_start inside input).answersWithin_weight closed
    exact answers.mono (Search.weight_start_le automaton id input)
  · -- Either of two equal choices leads to the byte that both are followed by.
    refine ⟨[.literal 0x61, .literal 0x61, .operator .alternate, .literal 0x62, .operator .concat],
      _, [0x61, 0x62, 0x62], rfl, ?_⟩
    decide +kernel

/-- A state that leads back to itself, and to another one that leads back to it
without reading and by a byte. -/
theorem search_answers_within_self_loop :
    exists automaton : Automaton,
      automaton.states = #[{ epsilons := [0, 1] },
        { terminal := true, edges := [(0x61, 0)], epsilons := [0] }] ∧
      automaton.Closed ∧ 0 < automaton.size ∧
      (start automaton 0 [0x61, 0x62]).AnswersWithin
        ((automaton.epsilonCount + 2) * (automaton.size + 1) ^ 3) := by
  have closed : Automaton.Closed { states := #[{ epsilons := [0, 1] },
      { terminal := true, edges := [(0x61, 0)], epsilons := [0] }] } := by
    simp [Automaton.Closed, Automaton.size]
  exact ⟨_, rfl, closed, by decide, search_answers_within.2.1 _ closed 0 (by decide) [0x61, 0x62]⟩

end Recognizer
end BytePattern
