import BytePattern.Proofs.Automaton.Construction
import BytePattern.Proofs.Search.Coverage
import BytePattern.Recognizer

namespace BytePattern

/-!
# A search decides acceptance

A search never accepts wrongly, since whatever it is about to enter was reached
by a path that spells the bytes consumed so far.  In a closed automaton the same
paths keep it from straying.  It never rejects wrongly either: a rejection means
that nothing is pending, and then what was entered contains every configuration
on every path from the start.

Both directions need one fact about the automaton, which the assembly
guarantees: a state that reads a byte has no other move.  The search relies on
this when it consumes a byte and gives up the epsilons of the state.
-/

namespace Automaton
namespace Path

variable {automaton : Automaton} {first : StateId} {front : List UInt8} {here there : Search.Configuration}

/-- A path is continued by a move, which takes from the input what it adds to
the word. -/
theorem move (path : automaton.Path first front here.1) (move : automaton.Move here there) :
    exists longer, front ++ here.2 = longer ++ there.2 ∧ automaton.Path first longer there.1 := by
  cases move with
  | epsilon found member =>
      have onward := path.append (.epsilon found member (.refl _))
      rw [List.append_nil] at onward
      exact ⟨front, rfl, onward⟩
  | @edge id target state byte rest found reads =>
      refine ⟨front ++ [byte], ?_, path.append (.edge found reads (.refl _))⟩
      rw [List.append_assoc]
      rfl

end Path
end Automaton

namespace Search

variable {automaton : Automaton} {origin : Configuration} {search next : Search automaton}
  {consumed : Option Consumption}

/-- Every pending configuration is reached by a path that spells what the search
has consumed before it. -/
def Reached (origin : Configuration) (search : Search automaton) : Prop :=
  forall here, here ∈ search.pending ->
    exists front, origin.2 = front ++ here.2 ∧ automaton.Path origin.1 front here.1

theorem reached_start (automaton : Automaton) (id : StateId) (input : List UInt8) :
    Reached (id, input) (start automaton id input) := by
  intro here member
  rw [List.mem_singleton.1 member]
  exact ⟨[], rfl, .refl id⟩

namespace Reached

/-- It is enough that what becomes pending is one move away from what was. -/
private theorem extend (reached : Reached origin search)
    (near : forall there, there ∈ next.pending -> there ∈ search.pending ∨
      exists here, here ∈ search.pending ∧ automaton.Move here there) :
    Reached origin next := by
  intro there member
  rcases near there member with old | ⟨here, before, move⟩
  · exact reached there old
  · rcases reached here before with ⟨front, split, path⟩
    rcases path.move move with ⟨longer, same, onward⟩
    exact ⟨longer, split.trans same, onward⟩

theorem step (reached : Reached origin search) (continues : Continues search consumed next) :
    Reached origin next := by
  apply reached.extend
  intro there member
  cases continues with
  | retreat => exact Or.inl member
  | skip _ _ => exact Or.inl (List.mem_cons_of_mem _ member)
  | @fork id state agenda marks position remaining _ _ found _ _ =>
      change there ∈ pendingFrom remaining (fork state agenda) at member
      rw [pendingFrom_fork] at member
      rcases List.mem_append.1 member with forked | later
      · rcases List.mem_map.1 forked with ⟨target, epsilon, same⟩
        exact Or.inr ⟨(id, remaining), List.mem_cons_self, same ▸ .epsilon found epsilon⟩
      · exact Or.inl (List.mem_cons_of_mem _ later)
  | @consume id target state byte agenda marks position remaining _ _ found reads =>
      rcases List.mem_cons.1 member with now | later
      · exact Or.inr ⟨(id, byte :: remaining), List.mem_cons_self, now ▸ .edge found reads⟩
      · exact Or.inl (List.mem_cons_of_mem _ later)

end Reached

/-- What holds of every search in a run from the given configuration. -/
structure Sound (origin : Configuration) (search : Search automaton) : Prop where
  reached : Reached origin search
  covered : exists entered : Configuration -> Prop, Covers entered search ∧
    (entered origin ∨ origin ∈ search.pending)

namespace Sound

theorem start (automaton : Automaton) (id : StateId) (input : List UInt8) :
    Sound (id, input) (start automaton id input) where
  reached := reached_start automaton id input
  covered := ⟨_, Covers.start automaton id input, Or.inr (List.mem_singleton.2 rfl)⟩

theorem step (sound : Sound origin search) (unmixed : automaton.Unmixed)
    (continues : Continues search consumed next) : Sound origin next where
  reached := sound.reached.step continues
  covered := by
    rcases sound.covered with ⟨entered, covers, known⟩
    rcases covers.step unmixed continues with ⟨more, coversMore, kept⟩
    exact ⟨more, coversMore, kept origin known⟩

/-- When nothing is left to be done, every path from the origin stays among the
configurations that were entered, and none of those accepts. -/
theorem not_acceptsFrom (sound : Sound origin search) (nothing : search.pending = []) :
    ¬ automaton.AcceptsFrom origin.1 origin.2 := by
  rintro ⟨last, state, path, found, terminal⟩
  rcases sound.covered with ⟨entered, covers, known⟩
  rw [nothing] at known
  have begun : entered (origin.1, origin.2 ++ []) := by
    rw [List.append_nil]
    exact known.resolve_right List.not_mem_nil
  have ended : entered (last, []) := by
    apply path.stays ?_ begun
    intro here there old move
    have next := covers.leads here there old move
    rw [nothing] at next
    exact next.resolve_right List.not_mem_nil
  rw [covers.unaccepting last state ended found] at terminal
  contradiction

end Sound

/-- A search in a closed automaton without mixed states ends with the right
verdict. -/
theorem verdict_start (unmixed : automaton.Unmixed) (closed : automaton.Closed) {id : StateId}
    (inside : id < automaton.size) (input : List UInt8) :
    ((start automaton id input).verdict = .accepted ∧ automaton.AcceptsFrom id input) ∨
      ((start automaton id input).verdict = .rejected ∧ ¬ automaton.AcceptsFrom id input) := by
  have ends : exists last, Sound (id, input) last ∧ Finishes last (start automaton id input).verdict :=
    exists_last (fun continues sound => sound.step unmixed continues) (Sound.start automaton id input)
  rcases ends with ⟨last, sound, finishes⟩
  generalize (start automaton id input).verdict = verdict at finishes ⊢
  cases finishes with
  | rejected => exact Or.inr ⟨rfl, sound.not_acceptsFrom rfl⟩
  | @strayed missing agenda marks position remaining outside =>
      rcases sound.reached (missing, remaining) List.mem_cons_self with ⟨front, _, path⟩
      exact absurd (path.lt_size closed inside) outside
  | @accepted goal state agenda marks position found terminal =>
      rcases sound.reached (goal, []) List.mem_cons_self with ⟨front, whole, path⟩
      rw [List.append_nil] at whole
      subst whole
      exact Or.inl ⟨rfl, goal, state, path, found, terminal⟩

end Search

namespace Recognizer

/-- In every assembled automaton, a search from any of its states answers
whether some path from there spells the whole input and ends in acceptance. -/
theorem exists_acceptsFrom_iff {tokens : List Token} {recognizer : Recognizer}
    (assembled : assemble tokens = .ok recognizer) {id : StateId}
    (inside : id < recognizer.automaton.size) (input : List UInt8) :
    exists answer, recognizer.acceptsFrom id input = .ok answer ∧
      (answer = true <-> recognizer.automaton.AcceptsFrom id input) := by
  have tidy := tidy_of_assemble assembled
  rcases Search.verdict_start tidy.unmixed tidy.closed inside input with
    ⟨verdict, accepts⟩ | ⟨verdict, rejects⟩
  · refine ⟨true, ?_, iff_of_true rfl accepts⟩
    rw [acceptsFrom, verdict]
  · refine ⟨false, ?_, iff_of_false Bool.false_ne_true rejects⟩
    rw [acceptsFrom, verdict]

/-- The first state of a repetition is the entry of its operand, not the root. -/
theorem exists_acceptsFrom_iff_inside_star :
    exists recognizer, assemble [.literal 0x61, .operator .star] = .ok recognizer ∧
      0 ≠ recognizer.root.entry ∧ 0 < recognizer.automaton.size ∧
      forall input, exists answer, recognizer.acceptsFrom 0 input = .ok answer ∧
        (answer = true <-> recognizer.automaton.AcceptsFrom 0 input) := by
  have assembled : exists recognizer, assemble [.literal 0x61, .operator .star] = .ok recognizer ∧
      0 ≠ recognizer.root.entry ∧ 0 < recognizer.automaton.size :=
    ⟨_, rfl, by decide, by decide⟩
  rcases assembled with ⟨recognizer, assembled, apart, inside⟩
  exact ⟨recognizer, assembled, apart, inside, exists_acceptsFrom_iff assembled inside⟩

end Recognizer
end BytePattern
