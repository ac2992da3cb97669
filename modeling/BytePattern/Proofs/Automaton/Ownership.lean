import BytePattern.Proofs.Automaton.Construction

namespace BytePattern

/-!
# Who owns a state

All fragments on the stack of an assembly lie in one automaton, and operators
change states of several of them at once.  Still every state belongs to exactly
one fragment.  No move leads from a state of one fragment to a state of another,
none leads into an entry, and none leads out of an exit.  The exits are all that
accepts.

Since fragments occupy intervals of states, the owner of a state can be told from
its number.  That it is an interval matters for finding the owner only.  What
is shown of owners is all that the construction promises.
-/

namespace Automaton

/-- Some move leads from the one state to the other. -/
def Linked (automaton : Automaton) (id target : StateId) : Prop :=
  exists state, automaton.state? id = some state ∧ target ∈ state.targets

/-- The state exists and accepts. -/
def Accepting (automaton : Automaton) (id : StateId) : Prop :=
  exists state, automaton.state? id = some state ∧ state.terminal = true

/-- A fragment that is not yet a part of a larger one. -/
structure Free (automaton : Automaton) (whole : Fragment) : Prop where
  apart : whole.entry ≠ whole.exit
  entry : exists state, automaton.state? whole.entry = some state ∧ state.terminal = false
  exit : automaton.Accepting whole.exit
  not_entered : forall id, ¬ automaton.Linked id whole.entry
  not_left : forall target, ¬ automaton.Linked whole.exit target

/-- The states before `high` are divided among the fragments.  An exit is not
continued, and every other state keeps to states of the same owner. -/
structure Divided (automaton : Automaton) (owner : StateId -> Fragment)
    (fragments : List Fragment) (high : StateId) : Prop where
  owned : forall id, id < high -> owner id ∈ fragments
  ends : forall whole, whole ∈ fragments -> owner whole.entry = whole ∧ owner whole.exit = whole
  inside : forall whole, whole ∈ fragments ->
    whole.entry < high ∧ whole.exit < high ∧ whole.entry ≠ whole.exit
  exit : forall whole, whole ∈ fragments ->
    automaton.state? whole.exit = some { terminal := true }
  inner : forall id, id < high -> id ≠ (owner id).exit ->
    exists state, automaton.state? id = some state ∧
      state.Confined 0 high (owner id).entry ∧
      forall target, target ∈ state.targets -> owner target = owner id

/-- The states from `low` on are given to one fragment, and the others are left to
their owners. -/
def ownerFrom (low : StateId) (whole : Fragment) (earlier : StateId -> Fragment) :
    StateId -> Fragment :=
  fun id => if id < low then earlier id else whole

section OwnerFrom

variable {low id : StateId} {whole : Fragment} {earlier : StateId -> Fragment}

theorem ownerFrom_of_lt (before : id < low) : ownerFrom low whole earlier id = earlier id :=
  if_pos before

theorem ownerFrom_of_le (behind : low <= id) : ownerFrom low whole earlier id = whole :=
  if_neg (Nat.not_lt.2 behind)

end OwnerFrom

theorem Divided.nil {automaton : Automaton} {owner : StateId -> Fragment} :
    Divided automaton owner [] 0 where
  owned := fun _ impossible => absurd impossible (Nat.not_lt_zero _)
  ends := fun _ impossible => absurd impossible List.not_mem_nil
  inside := fun _ impossible => absurd impossible List.not_mem_nil
  exit := fun _ impossible => absurd impossible List.not_mem_nil
  inner := fun _ impossible => absurd impossible (Nat.not_lt_zero _)

/-- A fragment that lies behind all others owns the states of its interval. -/
theorem Divided.cons {automaton : Automaton} {owner : StateId -> Fragment}
    {fragments : List Fragment} {tree : Expression} {whole : Fragment} {low high : StateId}
    (divided : Divided automaton owner fragments low) (laid : Laid automaton tree low whole high)
    (exit : automaton.state? whole.exit = some { terminal := true }) :
    Divided automaton (ownerFrom low whole owner) (whole :: fragments) high where
  owned := by
    intro id _
    by_cases before : id < low
    · rw [ownerFrom_of_lt before]
      exact List.mem_cons_of_mem _ (divided.owned id before)
    · rw [ownerFrom_of_le (Nat.not_lt.1 before)]
      exact List.mem_cons_self
  ends := by
    intro other member
    rcases List.mem_cons.1 member with here | among
    · have bounds := laid.bounds
      subst here
      exact ⟨ownerFrom_of_le bounds.1, ownerFrom_of_le bounds.2.2.1⟩
    · have inside := divided.inside other among
      rw [ownerFrom_of_lt inside.1, ownerFrom_of_lt inside.2.1]
      exact divided.ends other among
  inside := by
    intro other member
    have bounds := laid.bounds
    rcases List.mem_cons.1 member with here | among
    · subst here
      exact ⟨bounds.2.1, bounds.2.2.2.1, bounds.2.2.2.2⟩
    · have inside := divided.inside other among
      lia
  exit := by
    intro other member
    rcases List.mem_cons.1 member with here | among
    · exact here ▸ exit
    · exact divided.exit other among
  inner := by
    intro id toHigh apart
    have bounds := laid.bounds
    by_cases before : id < low
    · rw [ownerFrom_of_lt before] at apart ⊢
      rcases divided.inner id before apart with ⟨state, found, confined, kept⟩
      refine ⟨state, found, confined.widen (Nat.le_refl _) (by lia) (Or.inl rfl), ?_⟩
      intro target member
      rw [ownerFrom_of_lt (confined.inside target member).2.1]
      exact kept target member
    · have behind := Nat.not_lt.1 before
      rw [ownerFrom_of_le behind] at apart ⊢
      rcases laid.confined behind toHigh apart with ⟨state, found, confined⟩
      refine ⟨state, found, confined.widen (Nat.zero_le _) (Nat.le_refl _) (Or.inl rfl), ?_⟩
      intro target member
      exact ownerFrom_of_le (confined.inside target member).1

/-- Fragments that lie side by side own the states of their intervals. -/
theorem Stacked.exists_divided {automaton : Automaton} {forest : Forest}
    {fragments : List Fragment} {high : StateId} (stacked : Stacked automaton forest fragments high) :
    exists owner, Divided automaton owner fragments high := by
  induction stacked with
  | nil => exact ⟨fun _ => ⟨0, 0⟩, .nil⟩
  | @cons _ _ whole _ low _ _ laid exit ih =>
      rcases ih with ⟨earlier, divided⟩
      exact ⟨ownerFrom low whole earlier, divided.cons laid exit⟩

/-- No fragment is on the stack twice. -/
theorem Stacked.nodup {automaton : Automaton} {forest : Forest} {fragments : List Fragment}
    {high : StateId} (stacked : Stacked automaton forest fragments high) : fragments.Nodup := by
  induction stacked with
  | nil => exact List.nodup_nil
  | @cons _ _ whole _ _ _ below laid _ ih =>
      refine List.nodup_cons.2 ⟨fun again => ?_, ih⟩
      have before := (below.lt_of_mem again).1
      have bounds := laid.bounds
      lia

namespace Divided

variable {automaton : Automaton} {owner : StateId -> Fragment} {fragments : List Fragment}
  {id target : StateId} {state : State}

/-- A state is an exit, or it keeps to states of its owner. -/
theorem state_cases (divided : Divided automaton owner fragments automaton.size)
    (found : automaton.state? id = some state) :
    (id = (owner id).exit ∧ state = { terminal := true }) ∨
      (id ≠ (owner id).exit ∧ state.Confined 0 automaton.size (owner id).entry ∧
        forall target, target ∈ state.targets -> owner target = owner id) := by
  have inside := lt_size_of_state? found
  by_cases same : id = (owner id).exit
  · have free := divided.exit _ (divided.owned id inside)
    rw [← same, found] at free
    exact Or.inl ⟨same, Option.some.inj free⟩
  · rcases divided.inner id inside same with ⟨other, foundOther, kept⟩
    rw [found] at foundOther
    cases foundOther
    exact Or.inr ⟨same, kept⟩

/-- Moves lead to states that exist and have the same owner, and never to its
entry. -/
theorem linked (divided : Divided automaton owner fragments automaton.size)
    (linked : automaton.Linked id target) :
    target < automaton.size ∧ owner target = owner id ∧ target ≠ (owner id).entry ∧
      id ≠ (owner id).exit := by
  rcases linked with ⟨state, found, member⟩
  rcases divided.state_cases found with ⟨_, free⟩ | ⟨apart, confined, kept⟩
  · rw [free] at member
    exact absurd member List.not_mem_nil
  · have inside := confined.inside target member
    exact ⟨inside.2.1, kept target member, inside.2.2, apart⟩

theorem free (divided : Divided automaton owner fragments automaton.size) {whole : Fragment}
    (member : whole ∈ fragments) : Free automaton whole where
  apart := (divided.inside whole member).2.2
  entry := by
    have inside := divided.inside whole member
    have apart : whole.entry ≠ (owner whole.entry).exit := by
      rw [(divided.ends whole member).1]
      exact inside.2.2
    rcases divided.inner whole.entry inside.1 apart with ⟨state, found, confined, _⟩
    exact ⟨state, found, confined.silent⟩
  exit := ⟨_, divided.exit whole member, rfl⟩
  not_entered := by
    intro id leads
    have kept := divided.linked leads
    rw [(divided.ends whole member).1] at kept
    exact kept.2.2.1 (congrArg Fragment.entry kept.2.1)
  not_left := by
    intro target leads
    have kept := divided.linked leads
    rw [(divided.ends whole member).2] at kept
    exact kept.2.2.2 rfl

/-- The exits accept, and nothing else does. -/
theorem accepting_iff (divided : Divided automaton owner fragments automaton.size) :
    automaton.Accepting id <-> exists whole, whole ∈ fragments ∧ whole.exit = id := by
  constructor
  · rintro ⟨state, found, terminal⟩
    rcases divided.state_cases found with ⟨same, _⟩ | ⟨_, confined, _⟩
    · exact ⟨owner id, divided.owned id (lt_size_of_state? found), same.symm⟩
    · rw [confined.silent] at terminal
      contradiction
  · rintro ⟨whole, member, same⟩
    exact same ▸ ⟨_, divided.exit whole member, rfl⟩

theorem single (divided : Divided automaton owner fragments automaton.size)
    (found : automaton.state? id = some state) :
    (exists edge, state.edges = [edge] ∧ state.epsilons = []) ∨
      (state.edges = [] ∧ state.epsilons.length <= 2) := by
  rcases divided.state_cases found with ⟨_, free⟩ | ⟨_, confined, _⟩
  · rw [free]
    exact Or.inr ⟨rfl, Nat.zero_le _⟩
  · exact confined.single

end Divided

end Automaton

namespace Assembly

open Automaton (Accepting Free Linked)

/-- What is true of an automaton in the making, behind every token. -/
structure Orderly (assembly : Assembly) : Prop where
  free : forall whole, whole ∈ assembly.fragments -> Free assembly.automaton whole
  accepting : forall id, assembly.automaton.Accepting id <->
    exists whole, whole ∈ assembly.fragments ∧ whole.exit = id
  /-- The fragments are all different, and each owns the states of one part. -/
  divided : assembly.fragments.Nodup ∧ exists owner : StateId -> Fragment,
    (forall id, id < assembly.automaton.size -> owner id ∈ assembly.fragments) ∧
    (forall whole, whole ∈ assembly.fragments ->
      owner whole.entry = whole ∧ owner whole.exit = whole) ∧
    forall id target, assembly.automaton.Linked id target -> owner target = owner id
  single : forall id state, assembly.automaton.state? id = some state ->
    (exists edge, state.edges = [edge] ∧ state.epsilons = []) ∨
      (state.edges = [] ∧ state.epsilons.length <= 2)
  closed : forall id target, assembly.automaton.Linked id target ->
    target < assembly.automaton.size

theorem Holds.orderly {assembly : Assembly} {forest : Forest} (holds : assembly.Holds forest) :
    assembly.Orderly := by
  rcases Automaton.Stacked.exists_divided holds with ⟨owner, divided⟩
  exact {
    free := fun _ member => divided.free member
    accepting := fun _ => divided.accepting_iff
    divided := ⟨Automaton.Stacked.nodup holds, owner, divided.owned, divided.ends,
      fun _ _ linked => (divided.linked linked).2.1⟩
    single := fun _ _ found => divided.single found
    closed := fun _ _ linked => (divided.linked linked).1 }

/-! ## The number of states -/

/-- Only a concatenation makes do with the states that are there. -/
def needed (tokens : List Token) : Nat :=
  2 * tokens.countP fun token => token ≠ .operator .concat

theorem needed_cons (token : Token) (rest : List Token) :
    needed (token :: rest) = needed [token] + needed rest := by
  rw [needed, needed, needed, ← List.singleton_append, List.countP_append, Nat.mul_add]

theorem size_of_feed {assembly next : Assembly} {position : Nat} {token : Token}
    (fed : assembly.feed position token = .ok next) :
    next.automaton.size = assembly.automaton.size + needed [token] := by
  cases token with
  | literal byte =>
      cases fed
      exact Automaton.size_extend _ _
  | operator op =>
      rw [feed] at fed
      split at fed
      · next reduced found =>
        cases fed
        rcases assembly with ⟨automaton, _ | ⟨last, _ | ⟨previous, below⟩⟩⟩ <;> cases op <;>
          cases found <;>
          simp [stack, Automaton.concatenate, Automaton.alternate, Automaton.optional,
            Automaton.plus, Automaton.star, Automaton.size_continueAt, Automaton.size_extend, needed]
      · contradiction
  | parenthesis side => cases fed

theorem size_of_feedAll {assembly built : Assembly} {position : Nat} {tokens : List Token}
    (taken : assembly.feedAll position tokens = .ok built) :
    built.automaton.size = assembly.automaton.size + needed tokens := by
  induction tokens generalizing assembly position with
  | nil =>
      cases taken
      rfl
  | cons token rest ih =>
      rw [feedAll] at taken
      split at taken
      · next next fed =>
        rw [ih taken, size_of_feed fed, needed_cons token rest, Nat.add_assoc]
      · contradiction

end Assembly

namespace Recognizer

open Automaton (Accepting Linked)

variable {tokens : List Token} {recognizer : Recognizer}

/-- A list that is not empty is assembled to the one fragment it leaves. -/
theorem feedAll_of_assemble (assembled : assemble tokens = .ok recognizer) (given : tokens ≠ []) :
    Assembly.feedAll {} 0 tokens = .ok ⟨recognizer.automaton, [recognizer.root]⟩ := by
  rw [assemble] at assembled
  split at assembled
  · next built taken =>
    rcases Assembly.exists_holds_of_feedAll taken with ⟨forest, spelled, holds⟩
    have sameLength := Automaton.Stacked.length_eq holds
    rcases built with ⟨automaton, _ | ⟨root, _ | ⟨next, below⟩⟩⟩
    · rw [List.eq_nil_of_length_eq_zero sameLength.symm] at spelled
      exact absurd spelled.symm given
    · cases assembled
      exact taken
    · contradiction
  · contradiction

theorem Tidy.accepting_iff (tidy : recognizer.Tidy) (id : StateId) :
    recognizer.automaton.Accepting id <-> id = recognizer.root.exit := by
  constructor
  · rintro ⟨state, found, terminal⟩
    exact (tidy.terminal_iff found).1 terminal
  · intro same
    exact same ▸ ⟨_, tidy.exit, rfl⟩

theorem Tidy.not_linked_exit (tidy : recognizer.Tidy) (target : StateId) :
    ¬ recognizer.automaton.Linked recognizer.root.exit target := by
  rintro ⟨state, found, member⟩
  rw [tidy.exit] at found
  cases found
  exact List.not_mem_nil member

/-- Behind every front of a list that is assembled, the fragments divide the
states among them, and each of them is free to be built upon.  There are two
states for every token but the concatenations.  In the end, the one exit accepts
and is not left. -/
theorem orderly_of_feedAll :
    (forall (tokens : List Token) (built : Assembly), Assembly.feedAll {} 0 tokens = .ok built ->
      built.Orderly ∧
        built.automaton.size = 2 * tokens.countP fun token => token ≠ .operator .concat) ∧
    forall (tokens : List Token) (recognizer : Recognizer), assemble tokens = .ok recognizer ->
      (forall id, recognizer.automaton.Accepting id <-> id = recognizer.root.exit) ∧
      (forall target, ¬ recognizer.automaton.Linked recognizer.root.exit target) ∧
      recognizer.automaton.size =
        if tokens = [] then 2 else 2 * (tokens.length - tokens.count (.operator .concat)) := by
  constructor
  · intro tokens built taken
    rcases Assembly.exists_holds_of_feedAll taken with ⟨forest, _, holds⟩
    have size := Assembly.size_of_feedAll taken
    exact ⟨holds.orderly, size.trans (Nat.zero_add _)⟩
  · intro tokens recognizer assembled
    have tidy := tidy_of_assemble assembled
    refine ⟨tidy.accepting_iff, tidy.not_linked_exit, ?_⟩
    split
    · next empty =>
      subst empty
      cases assembled
      rfl
    · next given =>
      have size := Assembly.size_of_feedAll (feedAll_of_assemble assembled given)
      have counted : tokens.length = _ :=
        List.length_eq_countP_add_countP fun token => token == Token.operator .concat
      rw [size, Assembly.needed, List.count, counted, Nat.add_sub_cancel_left]
      simp [Automaton.size, Automaton.empty]

/-- Two fragments wait for a concatenation, which adds no state. -/
theorem orderly_of_feedAll_ahead_of_concat :
    (exists built,
      Assembly.feedAll {} 0 [.literal 0x61, .operator .star, .literal 0x62] = .ok built ∧
        built.fragments = [⟨4, 5⟩, ⟨2, 3⟩] ∧ built.Orderly ∧ built.automaton.size = 6) ∧
    exists recognizer,
      assemble [.literal 0x61, .operator .star, .literal 0x62, .operator .concat] = .ok recognizer ∧
        (forall id, recognizer.automaton.Accepting id <-> id = recognizer.root.exit) ∧
        recognizer.automaton.size = 6 := by
  have front : exists built,
      Assembly.feedAll {} 0 [.literal 0x61, .operator .star, .literal 0x62] = .ok built ∧
        built.fragments = [⟨4, 5⟩, ⟨2, 3⟩] := ⟨_, rfl, rfl⟩
  have whole : exists recognizer,
      assemble [.literal 0x61, .operator .star, .literal 0x62, .operator .concat] = .ok recognizer :=
    ⟨_, rfl⟩
  rcases front with ⟨built, taken, fragments⟩
  rcases whole with ⟨recognizer, assembled⟩
  have orderly := orderly_of_feedAll.1 _ built taken
  have finished := orderly_of_feedAll.2 _ recognizer assembled
  exact ⟨⟨built, taken, fragments, orderly.1, orderly.2⟩, recognizer, assembled, finished.1,
    finished.2.2⟩

end Recognizer
end BytePattern
