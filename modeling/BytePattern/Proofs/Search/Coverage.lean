import BytePattern.Automaton.Path
import BytePattern.Proofs.Automaton.Layout
import BytePattern.Proofs.Search.Steps

namespace BytePattern

/-!
# What a search has covered

A state is skipped if it is marked, although what was begun there may be
unfinished.  The marks of a position are also forgotten and made again, whenever
the byte before it is given back and another way to the position is tried.
Marks alone therefore do not tell what a search has done.

The argument keeps the set of all configurations that were ever entered,
whichever level they belonged to.  Each move from one of them leads to another
or to one that is still pending.  The marks matter in one respect only: every
mark of an open level stands for a configuration in this set, and hence skipping
loses nothing.  Once nothing is pending, the set is closed under moves, and no
member of it accepts.
-/

namespace Automaton

open Search (Configuration)

/-- One move between configurations. -/
inductive Move (automaton : Automaton) : Configuration -> Configuration -> Prop where
  | epsilon {id target : StateId} {state : State} {rest : List UInt8} :
      automaton.state? id = some state -> target ∈ state.epsilons ->
        Move automaton (id, rest) (target, rest)
  | edge {id target : StateId} {state : State} {byte : UInt8} {rest : List UInt8} :
      automaton.state? id = some state -> state.next? byte = some target ->
        Move automaton (id, byte :: rest) (target, rest)

namespace Move

variable {automaton : Automaton} {id : StateId} {state : State} {remaining : List UInt8}
  {there : Configuration}

/-- Where the next byte cannot be read, a move follows one of the epsilons. -/
theorem mem_epsilons (move : automaton.Move (id, remaining) there)
    (found : automaton.state? id = some state)
    (stuck : forall byte rest, remaining = byte :: rest -> state.next? byte = none) :
    there ∈ state.epsilons.map fun target => (target, remaining) := by
  cases move with
  | epsilon foundAgain member =>
      rw [found] at foundAgain
      cases foundAgain
      exact List.mem_map_of_mem member
  | edge foundAgain reads =>
      rw [found] at foundAgain
      cases foundAgain
      rw [stuck _ _ rfl] at reads
      contradiction

/-- Where the next byte can be read, nothing else is done in an unmixed state. -/
theorem eq_of_reads {byte : UInt8} {target : StateId}
    (move : automaton.Move (id, byte :: remaining) there)
    (found : automaton.state? id = some state) (reads : state.next? byte = some target)
    (alone : state.epsilons = []) : there = (target, remaining) := by
  cases move with
  | epsilon foundAgain member =>
      rw [found] at foundAgain
      cases foundAgain
      rw [alone] at member
      contradiction
  | edge foundAgain readsAgain =>
      rw [found] at foundAgain
      cases foundAgain
      rw [reads] at readsAgain
      cases readsAgain
      rfl

end Move

namespace Path

variable {automaton : Automaton} {first last : StateId} {word : List UInt8}

/-- A set that every move stays in is not left by a path. -/
theorem stays {entered : Configuration -> Prop} (path : automaton.Path first word last)
    (kept : forall here there, entered here -> automaton.Move here there -> entered there)
    {rest : List UInt8} (starts : entered (first, word ++ rest)) : entered (last, rest) := by
  induction path with
  | refl id => exact starts
  | epsilon found member _ ih => exact ih (kept _ _ starts (.epsilon found member))
  | edge found reads _ ih => exact ih (kept _ _ starts (.edge found reads))

theorem lt_size (path : automaton.Path first word last) (closed : automaton.Closed)
    (inside : first < automaton.size) : last < automaton.size := by
  induction path with
  | refl id => exact inside
  | epsilon found member _ ih =>
      exact ih ((closed _ (Array.mem_of_getElem? found)).2 _ member)
  | edge found reads _ ih =>
      exact ih ((closed _ (Array.mem_of_getElem? found)).1 _ (State.mem_edges_of_next? reads))

end Path

end Automaton

namespace Search

variable {automaton : Automaton}

namespace Level

/-- No mark of the level comes from a later position, and every mark that was
made at its own position stands for a configuration of the set. -/
def Recorded (entered : Configuration -> Prop) (level : Level automaton) : Prop :=
  forall (id : Fin automaton.size) (stamped : Nat), level.marks.contains id stamped = true ->
    stamped <= level.position ∧ (stamped = level.position -> entered (id.val, level.remaining))

theorem Recorded.mono {entered more : Configuration -> Prop} {level : Level automaton}
    (recorded : level.Recorded entered) (grows : forall here, entered here -> more here) :
    level.Recorded more := by
  intro id stamped marked
  have old := recorded id stamped marked
  exact ⟨old.1, fun same => grows _ (old.2 same)⟩

theorem Recorded.insert {entered : Configuration -> Prop} {marks : Marks automaton.size}
    {position : Nat} {remaining : List UInt8}
    (recorded : Level.Recorded entered ⟨marks, position, remaining⟩) (id : Fin automaton.size) :
    Level.Recorded (fun here => entered here ∨ here = (id.val, remaining))
      ⟨marks.insert id position, position, remaining⟩ := by
  intro other stamped marked
  rcases Marks.contains_insert_iff.1 marked with ⟨same, own⟩ | ⟨_, before⟩
  · subst same own
    exact ⟨Nat.le_refl _, fun _ => Or.inr rfl⟩
  · have old := recorded other stamped before
    exact ⟨old.1, fun same => Or.inl (old.2 same)⟩

/-- A level that was just opened has no mark of its own. -/
theorem Recorded.openLevel {entered : Configuration -> Prop} {marks : Marks automaton.size}
    {position : Nat} {remaining behind : List UInt8}
    (recorded : Level.Recorded entered ⟨marks, position, remaining⟩) :
    Level.Recorded entered ⟨marks.openLevel, position + 1, behind⟩ := by
  intro id stamped marked
  have old := recorded id stamped marked
  dsimp only at old ⊢
  exact ⟨Nat.le_succ_of_le old.1, fun same => absurd old.1 (by omega)⟩

end Level

/-- What is known of the configurations that a search has entered. -/
structure Covers (entered : Configuration -> Prop) (search : Search automaton) : Prop where
  leads : forall here there, entered here -> automaton.Move here there ->
    entered there ∨ there ∈ search.pending
  unaccepting : forall id state, entered (id, []) -> automaton.state? id = some state ->
    state.terminal = false
  recorded : forall level, level ∈ search.levels -> level.Recorded entered

namespace Covers

variable {entered : Configuration -> Prop}

theorem start (automaton : Automaton) (id : StateId) (input : List UInt8) :
    Covers (fun _ => False) (start automaton id input) where
  leads := fun _ _ impossible => impossible.elim
  unaccepting := fun _ _ impossible => impossible.elim
  recorded := by
    intro level member
    rw [List.mem_singleton.1 member]
    intro id stamped marked
    simp [Search.start, Marks.empty, Marks.contains] at marked

/-- Entering a state adds one configuration to the set.  It has to be accounted
for in the way that all others are. -/
theorem enter {id : StateId} {agenda : List Task} {marks : Marks automaton.size} {position : Nat}
    {remaining : List UInt8} {state : State} {next : Search automaton}
    (covers : Covers entered (⟨.enter id :: agenda, marks, position, remaining⟩ : Search automaton))
    (found : automaton.state? id = some state)
    (silent : remaining = [] -> state.terminal = false)
    (moves : forall there, automaton.Move (id, remaining) there -> there ∈ next.pending)
    (delayed : forall there, there ∈ pendingFrom remaining agenda -> there ∈ next.pending)
    (recorded : forall level, level ∈ next.levels ->
      level.Recorded fun here => entered here ∨ here = (id, remaining)) :
    exists more : Configuration -> Prop, Covers more next ∧
      (forall here, entered here ∨ here ∈ (id, remaining) :: pendingFrom remaining agenda ->
        more here ∨ here ∈ next.pending) := by
  have kept : forall here, entered here ∨ here ∈ (id, remaining) :: pendingFrom remaining agenda ->
      (entered here ∨ here = (id, remaining)) ∨ here ∈ next.pending := by
    rintro here (old | pending)
    · exact Or.inl (Or.inl old)
    · rcases List.mem_cons.1 pending with now | later
      · exact Or.inl (Or.inr now)
      · exact Or.inr (delayed here later)
  refine ⟨fun here => entered here ∨ here = (id, remaining), ⟨?_, ?_, recorded⟩, kept⟩
  · rintro here there (old | new) move
    · exact kept there (covers.leads here there old move)
    · subst new
      exact Or.inr (moves there move)
  · rintro other otherState (old | new) otherFound
    · exact covers.unaccepting other otherState old otherFound
    · cases new
      rw [found] at otherFound
      cases otherFound
      exact silent rfl

/-- No step loses sight of a configuration, whether it was entered or pending. -/
theorem step {search next : Search automaton} {consumed : Option Consumption}
    (covers : Covers entered search) (unmixed : automaton.Unmixed)
    (continues : Continues search consumed next) :
    exists more : Configuration -> Prop, Covers more next ∧
      (forall here, entered here ∨ here ∈ search.pending -> more here ∨ here ∈ next.pending) := by
  cases continues with
  | retreat =>
      refine ⟨entered, ⟨covers.leads, covers.unaccepting, ?_⟩, fun _ known => known⟩
      intro level member
      exact covers.recorded level (List.mem_cons_of_mem _ member)
  | @skip id agenda marks position remaining inside marked =>
      -- The mark stands for a configuration that was entered already.
      have already : entered (id, remaining) :=
        (covers.recorded _ List.mem_cons_self ⟨id, inside⟩ position marked).2 rfl
      have kept : forall here, entered here ∨ here ∈ (id, remaining) :: pendingFrom remaining agenda ->
          entered here ∨ here ∈ pendingFrom remaining agenda := by
        rintro here (old | waiting)
        · exact Or.inl old
        · rcases List.mem_cons.1 waiting with now | later
          · exact Or.inl (now ▸ already)
          · exact Or.inr later
      refine ⟨entered, ⟨?_, covers.unaccepting, covers.recorded⟩, kept⟩
      intro here there old move
      exact kept there (covers.leads here there old move)
  | @fork id state agenda marks position remaining inside absent found silent stuck =>
      have innermost := covers.recorded ⟨marks, position, remaining⟩ List.mem_cons_self
      refine covers.enter found silent ?_ ?_ ?_
      · intro there move
        change there ∈ pendingFrom remaining (fork state agenda)
        rw [pendingFrom_fork]
        exact List.mem_append_left _ (move.mem_epsilons found stuck)
      · intro there later
        change there ∈ pendingFrom remaining (fork state agenda)
        rw [pendingFrom_fork]
        exact List.mem_append_right _ later
      · intro level member
        rcases List.mem_cons.1 member with here | around
        · rw [here]
          exact innermost.insert ⟨id, inside⟩
        · rw [outerLevels_fork, outerLevels_insert] at around
          exact (covers.recorded level (List.mem_cons_of_mem _ around)).mono fun _ => Or.inl
  | @consume id target state byte agenda marks position remaining inside absent found reads =>
      have innermost := covers.recorded ⟨marks, position, byte :: remaining⟩ List.mem_cons_self
      refine covers.enter found (by simp) ?_ ?_ ?_
      · intro there move
        rw [move.eq_of_reads found reads (unmixed _ _ _ _ found reads)]
        exact List.mem_cons_self
      · intro there later
        exact List.mem_cons_of_mem _ later
      · intro level member
        rcases List.mem_cons.1 member with here | around
        · rw [here]
          exact (innermost.insert ⟨id, inside⟩).openLevel
        -- Closing the new level gives back the marks as they were before it.
        rcases List.mem_cons.1 around with left | further
        · rw [left]
          exact innermost.insert ⟨id, inside⟩
        · change level ∈ outerLevels (marks.insert ⟨id, inside⟩ position) position
            (byte :: remaining) agenda at further
          rw [outerLevels_insert] at further
          exact (covers.recorded level (List.mem_cons_of_mem _ further)).mono fun _ => Or.inl

end Covers

end Search
end BytePattern
