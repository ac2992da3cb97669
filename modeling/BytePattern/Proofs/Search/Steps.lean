import Mathlib.Logic.Relation
import BytePattern.Search.Run

namespace BytePattern
namespace Search

/-!
# What one step of a search does

A step either ends the search or goes on in one of four ways.  They are listed
here once, with everything that is known when they occur, and later arguments
are case distinctions over this list.  What every step keeps then holds of the
last search of a run, from which the verdict is read off.

An agenda mixes the tasks of all open levels.  Two views separate them: the
configurations that are still to be entered, each with the input that is left
at it, and the levels themselves, each with the marks that closing the deeper
ones brings back.
-/

variable {automaton : Automaton}

/-- A state and the input that is left there. -/
abbrev Configuration : Type := StateId × List UInt8

/-- The ways in which a search goes on. -/
inductive Continues : Search automaton -> Option Consumption -> Search automaton -> Prop where
  | retreat {byte : UInt8} {agenda : List Task} {marks : Marks automaton.size} {position : Nat}
      {remaining : List UInt8} :
      Continues ⟨.retreat byte :: agenda, marks, position, remaining⟩ none
        ⟨agenda, marks.closeLevel, position - 1, byte :: remaining⟩
  | skip {id : StateId} {agenda : List Task} {marks : Marks automaton.size} {position : Nat}
      {remaining : List UInt8} (inside : id < automaton.size)
      (marked : marks.contains ⟨id, inside⟩ position = true) :
      Continues ⟨.enter id :: agenda, marks, position, remaining⟩ none
        ⟨agenda, marks, position, remaining⟩
  /-- The next byte, if there is one, cannot be read at this state. -/
  | fork {id : StateId} {state : State} {agenda : List Task} {marks : Marks automaton.size}
      {position : Nat} {remaining : List UInt8} (inside : id < automaton.size)
      (absent : marks.contains ⟨id, inside⟩ position = false)
      (found : automaton.state? id = some state)
      (silent : remaining = [] -> state.terminal = false)
      (stuck : forall byte rest, remaining = byte :: rest -> state.next? byte = none) :
      Continues ⟨.enter id :: agenda, marks, position, remaining⟩ none
        ⟨fork state agenda, marks.insert ⟨id, inside⟩ position, position, remaining⟩
  | consume {id target : StateId} {state : State} {byte : UInt8} {agenda : List Task}
      {marks : Marks automaton.size} {position : Nat} {remaining : List UInt8}
      (inside : id < automaton.size) (absent : marks.contains ⟨id, inside⟩ position = false)
      (found : automaton.state? id = some state) (reads : state.next? byte = some target) :
      Continues ⟨.enter id :: agenda, marks, position, byte :: remaining⟩
        (some ⟨id, byte, target, position⟩)
        ⟨.enter target :: .retreat byte :: agenda,
          (marks.insert ⟨id, inside⟩ position).openLevel, position + 1, remaining⟩

/-- The ways in which a search ends. -/
inductive Finishes : Search automaton -> Verdict -> Prop where
  | rejected {marks : Marks automaton.size} {position : Nat} {remaining : List UInt8} :
      Finishes ⟨[], marks, position, remaining⟩ .rejected
  | strayed {id : StateId} {agenda : List Task} {marks : Marks automaton.size} {position : Nat}
      {remaining : List UInt8} (outside : ¬ id < automaton.size) :
      Finishes ⟨.enter id :: agenda, marks, position, remaining⟩ (.strayed id)
  | accepted {id : StateId} {state : State} {agenda : List Task} {marks : Marks automaton.size}
      {position : Nat} (found : automaton.state? id = some state) (terminal : state.terminal = true) :
      Finishes ⟨.enter id :: agenda, marks, position, []⟩ .accepted

/-- Leaving a marked state is the one place where a step has a choice. -/
private theorem leave_cases {id : StateId} {state : State} {agenda : List Task}
    {marks : Marks automaton.size} {position : Nat} {remaining : List UInt8}
    (inside : id < automaton.size) (absent : marks.contains ⟨id, inside⟩ position = false)
    (found : automaton.state? id = some state) :
    match leave id state agenda (marks.insert ⟨id, inside⟩ position) position remaining with
    | .finished verdict => Finishes ⟨.enter id :: agenda, marks, position, remaining⟩ verdict
    | .continued consumed next =>
        Continues ⟨.enter id :: agenda, marks, position, remaining⟩ consumed next := by
  cases remaining with
  | nil =>
      cases terminal : state.terminal with
      | true => simpa [leave, terminal] using .accepted found terminal
      | false =>
          simpa [leave, terminal] using .fork inside absent found (fun _ => terminal) (by simp)
  | cons byte rest =>
      cases reads : state.next? byte with
      | some target => simpa [leave, reads] using .consume inside absent found reads
      | none =>
          simpa [leave, reads] using .fork inside absent found (by simp) (by simp; exact reads)

/-- Every step ends the search or goes on in one of the ways that are listed. -/
theorem step_cases (search : Search automaton) :
    match search.step with
    | .finished verdict => Finishes search verdict
    | .continued consumed next => Continues search consumed next := by
  rcases search with ⟨_ | ⟨id | byte, agenda⟩, marks, position, remaining⟩
  · exact .rejected
  · by_cases inside : id < automaton.size
    · cases marked : marks.contains ⟨id, inside⟩ position with
      | true => simpa [step, inside, marked] using .skip inside marked
      | false =>
          simpa [step, inside, marked] using
            leave_cases inside marked (Array.getElem?_eq_getElem inside)
    · simpa [step, inside] using .strayed inside
  · exact .retreat

/-- A step that marks a state goes on by leaving it. -/
theorem step_enter {id : StateId} {state : State} {agenda : List Task}
    {marks : Marks automaton.size} {position : Nat} {remaining : List UInt8}
    (inside : id < automaton.size) (absent : marks.contains ⟨id, inside⟩ position = false)
    (found : automaton.state? id = some state) :
    step ⟨.enter id :: agenda, marks, position, remaining⟩ =
      leave id state agenda (marks.insert ⟨id, inside⟩ position) position remaining := by
  rcases Array.getElem?_eq_some_iff.1 found with ⟨_, rfl⟩
  simp only [step, dif_pos inside, absent]
  rfl

/-- The list says enough of each way to go on that the step can be told from it. -/
theorem Continues.step_eq {search next : Search automaton} {consumed : Option Consumption}
    (continues : Continues search consumed next) : search.step = .continued consumed next := by
  cases continues with
  | retreat => rfl
  | skip inside marked => simp only [step, inside, marked, dif_pos, if_true]
  | @fork _ _ _ _ _ remaining inside absent found silent stuck =>
      rw [step_enter inside absent found]
      cases remaining with
      | nil => simp only [leave, silent rfl, Bool.false_eq_true, if_false]
      | cons byte rest => simp only [leave, stuck byte rest rfl]
  | consume inside absent found reads =>
      rw [step_enter inside absent found]
      simp only [leave, reads]

/-! ## Whole runs -/

/-- The search goes on as another one after a single step. -/
def Leads (search next : Search automaton) : Prop :=
  exists consumed, search.step = .continued consumed next

/-- The search goes on as another one after any number of steps. -/
def Becomes : Search automaton -> Search automaton -> Prop :=
  Relation.ReflTransGen Leads

/-- What every step keeps, a run keeps. -/
theorem Becomes.keeps {invariant : Search automaton -> Prop} {search last : Search automaton}
    (kept : forall {search next : Search automaton} {consumed : Option Consumption},
      Continues search consumed next -> invariant search -> invariant next)
    (reached : search.Becomes last) (holds : invariant search) : invariant last := by
  induction reached with
  | refl => exact holds
  | @tail here there _ leads ih =>
      rcases leads with ⟨consumed, stepped⟩
      have continues := step_cases here
      rw [stepped] at continues
      exact kept continues ih

/-- A run comes to an end, and its verdict is the one found there. -/
theorem exists_becomes_finished (search : Search automaton) :
    exists last, search.Becomes last ∧ Finishes last search.verdict := by
  cases stepped : search.step with
  | finished verdict =>
      have same : search.verdict = verdict := by rw [Search.verdict, run_of_finished _ _ stepped]
      have finishes := step_cases search
      rw [stepped] at finishes
      exact ⟨search, .refl, same ▸ finishes⟩
  | continued consumed next =>
      have same : search.verdict = next.verdict := by rw [Search.verdict, run_of_continued _ _ stepped]; rfl
      rcases exists_becomes_finished next with ⟨last, reached, finishes⟩
      exact ⟨last, .head ⟨consumed, stepped⟩ reached, same ▸ finishes⟩
termination_by search.weight
decreasing_by exact weight_lt_of_step stepped

/-- A run ends at a search that every invariant of the steps still holds of. -/
theorem exists_last {invariant : Search automaton -> Prop}
    (kept : forall {search next : Search automaton} {consumed : Option Consumption},
      Continues search consumed next -> invariant search -> invariant next)
    {search : Search automaton} (holds : invariant search) :
    exists last, invariant last ∧ Finishes last search.verdict := by
  rcases exists_becomes_finished search with ⟨last, reached, finishes⟩
  exact ⟨last, reached.keeps kept holds, finishes⟩

/-- The search goes on as another one, and consumes the trail on the way. -/
inductive Follows : Search automaton -> List Consumption -> Search automaton -> Prop where
  | refl (search : Search automaton) : Follows search [] search
  | head {search next last : Search automaton} {consumed : Option Consumption}
      {trail : List Consumption} (continues : Continues search consumed next)
      (follows : Follows next trail last) : Follows search (consumed.toList ++ trail) last

namespace Follows

variable {search between last : Search automaton} {front back : List Consumption}

theorem trans (first : Follows search front between) (second : Follows between back last) :
    Follows search (front ++ back) last := by
  induction first with
  | refl => exact second
  | head continues _ ih =>
      rw [List.append_assoc]
      exact .head continues (ih second)

/-- Whatever is folded over a run that ends is folded over its trail. -/
theorem run_eq {σ : Type} (record : σ -> Consumption -> σ) (seed : σ) {verdict : Verdict}
    (follows : Follows search front last) (finished : last.step = .finished verdict) :
    search.run record seed = (verdict, front.foldl record seed) := by
  induction follows generalizing seed with
  | refl => exact run_of_finished record seed finished
  | @head _ _ _ consumed _ continues _ ih =>
      rw [run_of_continued record seed continues.step_eq, ih _ finished]
      cases consumed <;> rfl

theorem traced_eq {verdict : Verdict} (follows : Follows search front last)
    (finished : last.step = .finished verdict) : search.traced = (verdict, front) := by
  simp only [traced, follows.run_eq _ _ finished, List.foldl_flip_cons_eq_append, List.append_nil,
    List.map_id', List.reverse_reverse]

end Follows

/-! ## What is still to be entered -/

/-- The configurations of an agenda, given the input that is left.  A retreat
gives its byte back to those behind it. -/
def pendingFrom (remaining : List UInt8) : List Task -> List Configuration
  | [] => []
  | .enter id :: agenda => (id, remaining) :: pendingFrom remaining agenda
  | .retreat byte :: agenda => pendingFrom (byte :: remaining) agenda

def pending (search : Search automaton) : List Configuration :=
  pendingFrom search.remaining search.agenda

theorem pendingFrom_fork (remaining : List UInt8) (state : State) (agenda : List Task) :
    pendingFrom remaining (fork state agenda) =
      state.epsilons.map (fun target => (target, remaining)) ++ pendingFrom remaining agenda := by
  unfold fork
  induction state.epsilons with
  | nil => rfl
  | cons target targets ih => simpa [pendingFrom] using ih

/-! ## The levels that are open -/

/-- A level with the position and the input at which it was opened. -/
structure Level (automaton : Automaton) where
  marks : Marks automaton.size
  position : Nat
  remaining : List UInt8

/-- The levels that the retreats of an agenda return to, from the inside out. -/
def outerLevels (marks : Marks automaton.size) (position : Nat) (remaining : List UInt8) :
    List Task -> List (Level automaton)
  | [] => []
  | .enter _ :: agenda => outerLevels marks position remaining agenda
  | .retreat byte :: agenda =>
      ⟨marks.closeLevel, position - 1, byte :: remaining⟩ ::
        outerLevels marks.closeLevel (position - 1) (byte :: remaining) agenda

def levels (search : Search automaton) : List (Level automaton) :=
  ⟨search.marks, search.position, search.remaining⟩ ::
    outerLevels search.marks search.position search.remaining search.agenda

/-- Marking a state in the innermost level leaves the levels around it alone. -/
theorem outerLevels_insert (marks : Marks automaton.size) (id : Fin automaton.size)
    (place position : Nat) (remaining : List UInt8) (agenda : List Task) :
    outerLevels (marks.insert id place) position remaining agenda =
      outerLevels marks position remaining agenda := by
  induction agenda with
  | nil => rfl
  | cons task agenda ih =>
      cases task with
      | enter id => exact ih
      | retreat byte => simp only [outerLevels, Marks.closeLevel_insert]

theorem outerLevels_fork (marks : Marks automaton.size) (position : Nat) (remaining : List UInt8)
    (state : State) (agenda : List Task) :
    outerLevels marks position remaining (fork state agenda) =
      outerLevels marks position remaining agenda := by
  unfold fork
  induction state.epsilons with
  | nil => rfl
  | cons target targets ih => simpa [outerLevels] using ih

end Search
end BytePattern
