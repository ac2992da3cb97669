import BytePattern.Proofs.Search.Levels
import BytePattern.Proofs.Search.Safety

namespace BytePattern

/-!
# How a search uses its marks

What marks are good for depends on how they are used.  A search that marked at any
other position than the depth of the innermost level, or closed the last level, would
be told about marks of another level, or about none.

It does neither.  A level is opened together with the task that will close it, and
the position counts the bytes that were read, so at any time the levels around the
innermost one, the retreats on the agenda and the bytes are equally many.  This is
kept by every step, and it makes the history of every search one about which the
stack of sets can be believed.
-/

namespace Search

open Marks (Call Disciplined)

variable {automaton : Automaton}

/-- The level that a step opens for the byte that it reads. -/
def Step.opened : Step automaton -> List (Call automaton.size)
  | .continued (some _) _ => [.openLevel]
  | .continued none _ => []
  | .finished _ => []

/-- The calls that the next step makes, the latest first. -/
def calls (search : Search automaton) : List (Call automaton.size) :=
  match search.agenda with
  | [] => []
  | .retreat _ :: _ => [.closeLevel]
  | .enter id :: _ =>
    if inside : id < automaton.size then
      search.step.opened ++ [.mark ⟨id, inside⟩ search.position]
    else []

/-- How many levels an agenda will close. -/
def retreats : List Task -> Nat
  | [] => 0
  | .enter _ :: agenda => retreats agenda
  | .retreat _ :: agenda => retreats agenda + 1

theorem retreats_fork (state : State) (agenda : List Task) :
    retreats (fork state agenda) = retreats agenda := by
  unfold fork
  induction state.epsilons with
  | nil => rfl
  | cons target targets ih => exact ih

/-! ## One step -/

/-- The reply to marking a state decides whether the search leaves it. -/
theorem step_mark {id : StateId} {agenda : List Task} {marks : Marks automaton.size} {position : Nat}
    {remaining : List UInt8} (inside : id < automaton.size) :
    step ⟨.enter id :: agenda, marks, position, remaining⟩ =
      match marks.mark ⟨id, inside⟩ position with
      | (false, kept) => .continued none ⟨agenda, kept, position, remaining⟩
      | (true, kept) => leave id automaton.states[id] agenda kept position remaining := by
  cases marked : marks.contains ⟨id, inside⟩ position <;>
    simp [step, Marks.mark, inside, marked]

/-- To leave a state opens a level if a byte is read, and changes no mark. -/
theorem leave_marks {id : StateId} {state : State} {agenda : List Task}
    {marks : Marks automaton.size} {position : Nat} {remaining : List UInt8}
    {consumed : Option Consumption} {next : Search automaton}
    (left : leave id state agenda marks position remaining = .continued consumed next) :
    next.marks = marks.after (Step.continued consumed next).opened := by
  cases remaining with
  | nil =>
      rw [leave] at left
      split at left <;> cases left
      rfl
  | cons byte rest =>
      rw [leave] at left
      split at left <;> cases left <;> rfl

theorem calls_enter {id : StateId} {agenda : List Task} {marks : Marks automaton.size}
    {position : Nat} {remaining : List UInt8} {consumed : Option Consumption}
    {next : Search automaton} (inside : id < automaton.size)
    (continues : Continues ⟨.enter id :: agenda, marks, position, remaining⟩ consumed next) :
    calls ⟨.enter id :: agenda, marks, position, remaining⟩ =
      (Step.continued consumed next).opened ++ [.mark ⟨id, inside⟩ position] := by
  simp only [calls, dif_pos inside, continues.step_eq]

/-- A step changes the marks by its calls, and in no other way. -/
theorem Continues.marks_eq {search next : Search automaton} {consumed : Option Consumption}
    (continues : Continues search consumed next) : next.marks = search.marks.after search.calls := by
  rcases search with ⟨_ | ⟨id | byte, agenda⟩, marks, position, remaining⟩
  · cases continues
  · have inside : id < automaton.size := by
      cases continues <;> assumption
    have stepped := continues.step_eq
    rw [step_mark inside] at stepped
    rw [calls_enter inside continues, Marks.after_append]
    change next.marks = (marks.mark ⟨id, inside⟩ position).2.after _
    rcases replied : marks.mark ⟨id, inside⟩ position with ⟨_ | _, kept⟩ <;> rw [replied] at stepped
    · cases stepped
      rfl
    · exact leave_marks stepped
  · cases continues
    rfl

/-- The marks come from a history that keeps to the levels.  The innermost level is
the one of the position, and the agenda closes all levels around it. -/
structure Tracked (search : Search automaton) (history : List (Call automaton.size)) : Prop where
  disciplined : Disciplined 0 history search.position
  marks : search.marks = (Marks.empty automaton.size).after history
  levels : retreats search.agenda = search.position

namespace Tracked

variable {search next : Search automaton} {history : List (Call automaton.size)}

theorem start (automaton : Automaton) (id : StateId) (input : List UInt8) :
    (start automaton id input).Tracked [] where
  disciplined := .nil
  marks := rfl
  levels := rfl

theorem step {consumed : Option Consumption} (tracked : search.Tracked history)
    (continues : Continues search consumed next) : next.Tracked (search.calls ++ history) := by
  have marks : next.marks = (Marks.empty automaton.size).after (search.calls ++ history) := by
    rw [Marks.after_append, ← tracked.marks, continues.marks_eq]
  rcases tracked with ⟨disciplined, _, levels⟩
  cases continues with
  | @retreat _ agenda _ position _ =>
      -- The retreat is one of as many as the position counts, so it does not close the bottom.
      have depth : position = Search.retreats agenda + 1 := levels.symm
      subst depth
      exact ⟨.closeLevel (Nat.zero_le _) disciplined, marks, rfl⟩
  | skip inside marked =>
      rw [calls_enter inside (.skip inside marked)] at marks ⊢
      exact ⟨.mark _ disciplined, marks, levels⟩
  | fork inside absent found silent stuck =>
      rw [calls_enter inside (.fork inside absent found silent stuck)] at marks ⊢
      exact ⟨.mark _ disciplined, marks, (retreats_fork _ _).trans levels⟩
  | consume inside absent found reads =>
      rw [calls_enter inside (.consume inside absent found reads)] at marks ⊢
      exact ⟨.openLevel (.mark _ disciplined), marks, congrArg Nat.succ levels⟩

/-- The calls of the next step keep to the levels too, also if the search ends with it. -/
theorem calls (tracked : search.Tracked history) :
    exists depth, Disciplined 0 (search.calls ++ history) depth := by
  rcases search with ⟨_ | ⟨id | byte, agenda⟩, marks, position, remaining⟩
  · exact ⟨position, tracked.disciplined⟩
  · by_cases inside : id < automaton.size
    · have marking : Disciplined 0 (.mark ⟨id, inside⟩ position :: history) position :=
        .mark _ tracked.disciplined
      simp only [Search.calls, dif_pos inside, List.append_assoc, List.singleton_append]
      rcases Search.step _ with verdict | ⟨_ | consumption, next⟩
      · exact ⟨position, marking⟩
      · exact ⟨position, marking⟩
      · exact ⟨position + 1, .openLevel marking⟩
    · simp only [Search.calls, dif_neg inside]
      exact ⟨position, tracked.disciplined⟩
  · exact ⟨_, (tracked.step .retreat).disciplined⟩

/-- One level for each retreat, and the one at the bottom. -/
theorem levelCount_eq (tracked : search.Tracked history) :
    search.marks.levelCount = 1 + Search.retreats search.agenda := by
  rw [tracked.levels, tracked.marks, tracked.disciplined.levelCount_eq, Nat.add_comm]

end Tracked

/-! ## Whole runs -/

/-- The search goes on as another one, and makes these calls on the way. -/
inductive Uses (first : Search automaton) : List (Call automaton.size) -> Search automaton -> Prop where
  | refl : Uses first [] first
  | tail {here next : Search automaton} {history : List (Call automaton.size)}
      {consumed : Option Consumption} (uses : Uses first history here)
      (stepped : here.step = .continued consumed next) : Uses first (here.calls ++ history) next

theorem Becomes.exists_uses {first last : Search automaton} (reached : first.Becomes last) :
    exists history, first.Uses history last := by
  induction reached with
  | refl => exact ⟨[], .refl⟩
  | tail _ leads ih =>
      rcases ih with ⟨history, uses⟩
      rcases leads with ⟨consumed, stepped⟩
      exact ⟨_, .tail uses stepped⟩

theorem Uses.becomes {first last : Search automaton} {history : List (Call automaton.size)}
    (uses : first.Uses history last) : first.Becomes last := by
  induction uses with
  | refl => exact .refl
  | tail _ stepped ih => exact .tail ih ⟨_, stepped⟩

theorem Tracked.uses {first last : Search automaton} {history : List (Call automaton.size)}
    (tracked : first.Tracked []) (uses : first.Uses history last) : last.Tracked history := by
  induction uses with
  | refl => exact tracked
  | @tail here next _ consumed _ stepped ih =>
      have continues := step_cases here
      rw [stepped] at continues
      exact ih.step continues

end Search

namespace Recognizer

open Search (start Marks retreats)
open Search.Marks (Call Disciplined MarkedSince setsAfter)

/-- Marks that are used with discipline are a stack of sets.  There are as many
levels as the depth says, and the reply to marking a state is whether it has not been
marked since the innermost level was opened.  A level begins with no state marked.
Closing it brings back the marks from before the call that had opened it.

Every search uses its marks in this way, with one level more than there are retreats
on its agenda.  A search of an assembled automaton only marks states that exist. -/
theorem marks_stack_of_sets :
    (forall (capacity : Nat) (history : List (Call capacity)) (depth : Nat),
      Disciplined 0 history depth ->
        ((Marks.empty capacity).after history).Represents (setsAfter history) ∧
        ((Marks.empty capacity).after history).levelCount = depth + 1 ∧
        (forall id : Fin capacity, (((Marks.empty capacity).after history).mark id depth).1 = true <->
          ¬ MarkedSince depth history depth id) ∧
        (forall id : Fin capacity,
          ((Marks.empty capacity).after (.openLevel :: history)).contains id (depth + 1) = false) ∧
        forall below, depth = below + 1 -> exists later earlier,
          history = later ++ .openLevel :: earlier ∧ Disciplined 0 earlier below ∧
            Disciplined depth later depth ∧
            (Marks.empty capacity).after (.closeLevel :: history) =
              (Marks.empty capacity).after earlier) ∧
    (forall (automaton : Automaton) (id : StateId) (input : List UInt8) (here : Search automaton),
      (start automaton id input).Becomes here ->
        exists history, (start automaton id input).Uses history here) ∧
    (forall (automaton : Automaton) (id : StateId) (input : List UInt8)
      (history : List (Call automaton.size)) (here : Search automaton),
      (start automaton id input).Uses history here ->
        Disciplined 0 history here.position ∧
        (exists depth, Disciplined 0 (here.calls ++ history) depth) ∧
        here.marks = (Marks.empty automaton.size).after history ∧
        here.marks.levelCount = 1 + retreats here.agenda) ∧
    forall (tokens : List Token) (recognizer : Recognizer), assemble tokens = .ok recognizer ->
      forall (id : StateId) (input : List UInt8) (here : Search recognizer.automaton),
        id < recognizer.automaton.size -> (start recognizer.automaton id input).Becomes here ->
          here.Inside := by
  refine ⟨?_, fun _ _ _ _ reached => reached.exists_uses, ?_, ?_⟩
  · intro capacity history depth disciplined
    refine ⟨?_, disciplined.levelCount_eq, disciplined.mark_fst_iff, disciplined.contains_openLevel, ?_⟩
    · rcases disciplined.represents with ⟨set, around, sets, _, represents⟩
      exact sets ▸ represents
    · rintro below rfl
      exact disciplined.exists_after_closeLevel _
  · intro automaton id input history here uses
    have tracked := (Search.Tracked.start automaton id input).uses uses
    exact ⟨tracked.disciplined, tracked.calls, tracked.marks, tracked.levelCount_eq⟩
  · intro tokens recognizer assembled id input here inside reached
    exact (Search.inside_start inside input).becomes (tidy_of_assemble assembled).closed reached

/-- A state that is marked in an inner level is still marked in the outer one when the
inner level is closed, and it is new again when that position is used once more. -/
theorem marks_stack_of_sets_same_position_again :
    (exists history : List (Call 3),
      history = [.openLevel, .closeLevel, .mark 1 1, .openLevel, .mark 1 0] ∧
      Disciplined 0 history 1 ∧
      ¬ MarkedSince 1 history 1 (1 : Fin 3) ∧
      (((Marks.empty 3).after history).mark 1 1).1 = true ∧
      (((Marks.empty 3).after history.tail).mark 1 0).1 = false) ∧
    exists (recognizer : Recognizer) (history : List (Call recognizer.automaton.size))
      (here : Search recognizer.automaton),
      assemble [.literal 0x61] = .ok recognizer ∧
      (start recognizer.automaton recognizer.root.entry [0x61]).Uses history here ∧
      here.position = 1 ∧ here.marks.levelCount = 1 + retreats here.agenda ∧ here.Inside := by
  constructor
  · have disciplined : Disciplined 0
        ([.openLevel, .closeLevel, .mark 1 1, .openLevel, .mark 1 0] : List (Call 3)) 1 :=
      .openLevel (.closeLevel (Nat.zero_le 0) (.mark 1 (.openLevel (.mark 1 .nil))))
    rcases marks_stack_of_sets.1 3 _ 1 disciplined with ⟨_, _, told, _, _⟩
    exact ⟨_, rfl, disciplined, (told 1).1 (by decide), by decide, by decide⟩
  · have assembled : exists recognizer : Recognizer, assemble [.literal 0x61] = .ok recognizer ∧
        recognizer.root.entry < recognizer.automaton.size ∧
        exists consumed next,
          (start recognizer.automaton recognizer.root.entry [0x61]).step = .continued consumed next ∧
            next.position = 1 :=
      ⟨_, rfl, by decide, _, _, rfl, rfl⟩
    rcases assembled with ⟨recognizer, assembled, inside, consumed, next, stepped, position⟩
    have uses := Search.Uses.tail .refl stepped
    rcases marks_stack_of_sets.2.2.1 _ _ _ _ next uses with ⟨_, _, _, levels⟩
    have exist := marks_stack_of_sets.2.2.2 _ recognizer assembled _ [0x61] next inside uses.becomes
    exact ⟨recognizer, _, next, assembled, uses, position, levels, exist⟩

end Recognizer
end BytePattern
