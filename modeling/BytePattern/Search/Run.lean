import BytePattern.Search.Weight

namespace BytePattern
namespace Search

/-!
# Running a search

A run repeats the step until a verdict is reached, and folds the consumptions
on the way into a value of the caller's choice.  A caller that only wants the
verdict thus keeps nothing, however long the search takes.

The order in which the consumptions are folded is the order of the search, and
it includes the attempts that came to nothing.  `run_eq` says that a run is
determined by two things, the verdict and the trail.
-/

variable {automaton : Automaton} {σ : Type}

/-- Folds in what one step has consumed. -/
def noted (record : σ -> Consumption -> σ) (seed : σ) : Option Consumption -> σ
  | none => seed
  | some consumption => record seed consumption

/-- Runs a search to its end.  It has one, as the weight decreases. -/
def run (record : σ -> Consumption -> σ) (seed : σ) (search : Search automaton) : Verdict × σ :=
  match _ : search.step with
  | .finished verdict => (verdict, seed)
  | .continued consumed next => next.run record (noted record seed consumed)
termination_by search.weight
decreasing_by exact weight_lt_of_step ‹_›

/-- How a search ends. -/
def verdict (search : Search automaton) : Verdict :=
  (search.run (fun _ _ => ()) ()).1

/-- How a search ends, and everything it consumes until then, in order. -/
def traced (search : Search automaton) : Verdict × List Consumption :=
  let (verdict, backwards) := search.run (fun trail consumption => consumption :: trail) []
  (verdict, backwards.reverse)

/-- Everything a search consumes, in order. -/
def trail (search : Search automaton) : List Consumption :=
  search.traced.2

theorem run_of_finished (record : σ -> Consumption -> σ) (seed : σ) {search : Search automaton}
    {verdict : Verdict} (stepped : search.step = .finished verdict) :
    search.run record seed = (verdict, seed) := by
  rw [run]
  split
  · next other found =>
    rw [stepped] at found
    cases found
    rfl
  · next found =>
    rw [stepped] at found
    contradiction

theorem run_of_continued (record : σ -> Consumption -> σ) (seed : σ) {search next : Search automaton}
    {consumed : Option Consumption} (stepped : search.step = .continued consumed next) :
    search.run record seed = next.run record (noted record seed consumed) := by
  rw [run]
  split
  · next found =>
    rw [stepped] at found
    contradiction
  · next found =>
    rw [stepped] at found
    cases found
    rfl

/-- Any run is a fold over what the search consumes, and nothing that is
folded has an influence on the verdict. -/
theorem exists_run_eq (search : Search automaton) :
    exists (verdict : Verdict) (trail : List Consumption),
      forall (σ : Type) (record : σ -> Consumption -> σ) (seed : σ),
        search.run record seed = (verdict, trail.foldl record seed) := by
  cases stepped : search.step with
  | finished verdict =>
    exact ⟨verdict, [], fun _ record seed => run_of_finished record seed stepped⟩
  | continued consumed next =>
    obtain ⟨verdict, trail, rest⟩ := exists_run_eq next
    refine ⟨verdict, consumed.toList ++ trail, fun _ record seed => ?_⟩
    rw [run_of_continued record seed stepped, rest]
    cases consumed <;> rfl
termination_by search.weight
decreasing_by exact weight_lt_of_step stepped

theorem run_eq (record : σ -> Consumption -> σ) (seed : σ) (search : Search automaton) :
    search.run record seed = (search.verdict, search.trail.foldl record seed) := by
  obtain ⟨verdict, trail, folded⟩ := exists_run_eq search
  have sameVerdict : search.verdict = verdict := by rw [Search.verdict, folded]
  have sameTrail : search.trail = trail := by
    simp only [Search.trail, traced, folded, List.foldl_flip_cons_eq_append, List.append_nil,
      List.map_id', List.reverse_reverse]
  rw [sameVerdict, sameTrail, folded]

theorem traced_eq (search : Search automaton) : search.traced = (search.verdict, search.trail) := by
  have sameVerdict : search.traced.1 = search.verdict := by simp only [traced, run_eq]
  exact Prod.ext sameVerdict rfl

end Search
end BytePattern
