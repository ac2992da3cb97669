import BytePattern.Proofs.Regex.Outcome
import BytePattern.Session

namespace BytePattern

/-!
# What a session remembers

A session keeps no history, and yet each of its two parts is determined by one.
The current expression is the last one that any reply has shown, and the draft is
what the commands have made of it, whatever they were answered.  A compilation
that fails shows no expression and is no change to a draft, and so nothing that
comes after it can tell that it took place.

Everything a command can do is said once, and what holds of a session after any
number of commands follows by induction on them.
-/

/-- Compiling its own pattern would yield the same expression once more. -/
def Regex.Reproducible (regex : Regex) : Prop :=
  exists settings, compile settings regex.pattern = .ok regex

namespace Session

variable {session next : Session} {reply : Reply}

/-! ## One command -/

/-- Everything a command can do to a session, with the reply. -/
inductive Performs (session : Session) : Reply -> Session -> Prop where
  | redrafted (draft : Option Draft) : Performs session .done { session with draft := draft }
  | absent : Performs session .absent session
  | adopted {settings : Settings} {pattern : String} {regex : Regex}
      (compiled : Regex.compile settings pattern = .ok regex) :
      Performs session (.regex regex) { session with current := some regex }
  | refused {settings : Settings} {pattern : String} {refusal : Refusal}
      (failed : Regex.compile settings pattern = .error (.refused refusal)) :
      Performs session (.failed (.refused refusal)) session
  | matched {regex : Regex} (present : session.current = some regex) (input : List UInt8) :
      Performs session (.verdict (regex.isMatch input)) session
  | displayed {regex : Regex} (present : session.current = some regex) :
      Performs session (.regex regex) session

theorem performs_adopt (session : Session) (settings : Settings) (pattern : String) :
    Performs session (session.adopt (Regex.compile settings pattern)).1
      (session.adopt (Regex.compile settings pattern)).2 := by
  rcases Regex.compile_cases settings pattern with
    ⟨regex, made⟩ | ⟨position, failed⟩ | ⟨side, failed⟩ | ⟨op, position, failed⟩
  · rw [made]
    exact .adopted made
  all_goals
    rw [failed]
    exact .refused failed

theorem performs_perform (session : Session) (command : Command) :
    Performs session (session.perform command).1 (session.perform command).2 := by
  rcases session with ⟨draft, current⟩
  cases command with
  | draft pattern => exact .redrafted _
  | configure settings =>
      cases draft with
      | none => exact .absent
      | some draft => exact .redrafted _
  | build =>
      cases draft with
      | none => exact .absent
      | some draft => exact performs_adopt _ _ _
  | compile pattern => exact performs_adopt _ _ _
  | isMatch input =>
      cases current with
      | none => exact .absent
      | some regex => exact .matched rfl input
  | display =>
      cases current with
      | none => exact .absent
      | some regex => exact .displayed rfl

/-- The expression that a reply shows. -/
def Reply.regex? : Reply -> Option Regex
  | .regex shown => some shown
  | _ => none

/-- What a command makes of the draft. -/
def Command.redraft (draft : Option Draft) : Command -> Option Draft
  | .draft pattern => some { pattern := pattern }
  | .configure settings => draft.map fun draft => { draft with settings := settings }
  | _ => draft

theorem Performs.current_eq (performs : Performs session reply next) :
    next.current = reply.regex?.or session.current := by
  cases performs with
  | redrafted | absent | adopted | refused | matched => rfl
  | displayed present => exact present

/-- A failed command leaves the session as it was, and it is the author who has
to be told. -/
theorem Performs.of_failed {failure : Failure} (performs : Performs session (.failed failure) next) :
    next = session ∧ exists refusal, failure = .refused refusal := by
  cases performs with
  | refused failed => exact ⟨rfl, _, rfl⟩

theorem Performs.reproducible (performs : Performs session reply next)
    (before : forall regex, session.current = some regex -> regex.Reproducible) {regex : Regex}
    (shown : reply.regex? = some regex) : regex.Reproducible := by
  cases performs with
  | redrafted | absent | refused | matched => contradiction
  | @adopted settings pattern _ compiled =>
      cases shown
      have own := (Regex.compile_eq_ok_iff.1 compiled).1
      exact ⟨settings, own ▸ compiled⟩
  | displayed present =>
      cases shown
      exact before regex present

theorem adopt_draft (session : Session) (outcome : Except Failure Regex) :
    (session.adopt outcome).2.draft = session.draft := by
  cases outcome <;> rfl

theorem draft_perform (session : Session) (command : Command) :
    (session.perform command).2.draft = command.redraft session.draft := by
  rcases session with ⟨draft, current⟩
  cases command with
  | draft pattern => rfl
  | configure settings => cases draft <;> rfl
  | build =>
      cases draft with
      | none => rfl
      | some draft => exact adopt_draft _ _
  | compile pattern => exact adopt_draft _ _
  | isMatch input => cases current <;> rfl
  | display => cases current <;> rfl

/-! ## Any number of commands -/

theorem performAll_cons (session : Session) (command : Command) (rest : List Command) :
    session.performAll (command :: rest) =
      ((session.perform command).1 :: ((session.perform command).2.performAll rest).1,
        ((session.perform command).2.performAll rest).2) := rfl

theorem performAll_append (session : Session) (front back : List Command) :
    session.performAll (front ++ back) =
      ((session.performAll front).1 ++ ((session.performAll front).2.performAll back).1,
        ((session.performAll front).2.performAll back).2) := by
  induction front generalizing session with
  | nil => rfl
  | cons command front ih =>
      simp only [List.cons_append, performAll_cons, ih]

/-- Every command has its reply. -/
theorem length_performAll (session : Session) (commands : List Command) :
    (session.performAll commands).1.length = commands.length := by
  induction commands generalizing session with
  | nil => rfl
  | cons command rest ih => exact congrArg (· + 1) (ih _)

theorem exists_performs_of_mem {commands : List Command}
    (member : reply ∈ (session.performAll commands).1) :
    exists before after, Performs before reply after := by
  induction commands generalizing session with
  | nil => exact absurd member List.not_mem_nil
  | cons command rest ih =>
      rcases List.mem_cons.1 member with now | later
      · exact ⟨session, _, now ▸ performs_perform session command⟩
      · exact ih later

/-- The current expression is the last one that was shown. -/
theorem current_performAll (session : Session) (commands : List Command) :
    (session.performAll commands).2.current =
      ((session.performAll commands).1.filterMap Reply.regex?).getLast?.or session.current := by
  induction commands generalizing session with
  | nil => rfl
  | cons command rest ih =>
      have first := (performs_perform session command).current_eq
      simp only [performAll_cons, ih, first]
      cases shown : (session.perform command).1.regex? with
      | none => rw [List.filterMap_cons_none shown, Option.none_or]
      | some regex =>
          rw [List.filterMap_cons_some shown, List.getLast?_cons]
          cases (((session.perform command).2.performAll rest).1.filterMap Reply.regex?).getLast? <;> rfl

theorem draft_performAll (session : Session) (commands : List Command) :
    (session.performAll commands).2.draft = commands.foldl Command.redraft session.draft := by
  induction commands generalizing session with
  | nil => rfl
  | cons command rest ih =>
      simp only [performAll_cons, ih, draft_perform, List.foldl_cons]

/-- Whatever is shown can be reproduced, if this is so of what was there before. -/
theorem reproducible_of_performAll {commands : List Command}
    (before : forall regex, session.current = some regex -> regex.Reproducible) :
    (forall regex, .regex regex ∈ (session.performAll commands).1 -> regex.Reproducible) ∧
      forall regex, (session.performAll commands).2.current = some regex -> regex.Reproducible := by
  induction commands generalizing session with
  | nil => exact ⟨fun _ impossible => absurd impossible List.not_mem_nil, before⟩
  | cons command rest ih =>
      have performs := performs_perform session command
      have kept : forall regex, (session.perform command).2.current = some regex ->
          regex.Reproducible := by
        intro regex present
        rw [performs.current_eq, Option.or_eq_some_iff] at present
        rcases present with shown | ⟨_, old⟩
        · exact performs.reproducible before shown
        · exact before regex old
      rcases ih kept with ⟨replies, last⟩
      refine ⟨?_, last⟩
      intro regex member
      rcases List.mem_cons.1 member with now | later
      · exact performs.reproducible before (congrArg Reply.regex? now.symm)
      · exact replies regex later

/-! ## Results -/

/-- A command that fails is as good as one that was not given.  The replies to
all others are the same, and so is the session in the end. -/
theorem performAll_of_failed {front back : List Command} {command : Command} {failure : Failure}
    (failed : ((session.performAll front).2.perform command).1 = .failed failure) :
    exists later last,
      session.performAll (front ++ back) = ((session.performAll front).1 ++ later, last) ∧
        session.performAll (front ++ command :: back) =
          ((session.performAll front).1 ++ .failed failure :: later, last) := by
  have performs := performs_perform (session.performAll front).2 command
  rw [failed] at performs
  have unchanged := performs.of_failed.1
  refine ⟨_, _, performAll_append session front back, ?_⟩
  rw [performAll_append, performAll_cons, unchanged, failed]

/-- In a new session, the replies so far tell how the next input will be matched. -/
theorem reply_isMatch (commands : List Command) (input : List UInt8) :
    ((performAll {} commands).2.perform (.isMatch input)).1 =
      match ((performAll {} commands).1.filterMap Reply.regex?).getLast? with
      | none => .absent
      | some regex => .verdict (regex.isMatch input) := by
  have current := current_performAll {} commands
  rw [Option.or_none] at current
  rw [← current, perform]
  cases (performAll {} commands).2.current <;> rfl

/-- And the commands so far tell what would be built next. -/
theorem reply_build (commands : List Command) :
    ((performAll {} commands).2.perform .build).1 =
      match commands.foldl Command.redraft none with
      | none => .absent
      | some draft =>
        match Regex.compile draft.settings draft.pattern with
        | .ok regex => .regex regex
        | .error failure => .failed failure := by
  rw [← draft_performAll {} commands, perform]
  cases (performAll {} commands).2.draft with
  | none => rfl
  | some draft =>
      dsimp only
      cases Regex.compile draft.settings draft.pattern <;> rfl

/-- A new session never shows anything that compiling its pattern would not yield,
and it fails only by refusing a pattern. -/
theorem replies_of_new (commands : List Command) :
    (forall regex, .regex regex ∈ (performAll {} commands).1 -> regex.Reproducible) ∧
      forall failure, .failed failure ∈ (performAll {} commands).1 ->
        exists refusal, failure = .refused refusal := by
  refine ⟨(reproducible_of_performAll fun _ impossible => by contradiction).1, ?_⟩
  intro failure member
  rcases exists_performs_of_mem member with ⟨before, after, performs⟩
  exact performs.of_failed.2

end Session
end BytePattern
