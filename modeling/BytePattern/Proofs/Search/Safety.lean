import BytePattern.Proofs.Automaton.Layout
import BytePattern.Proofs.Search.Steps

namespace BytePattern
namespace Search

/-!
# No search strays

Every access of a search is to a state, or to the stamp of one, and it takes the
number of the state from its agenda.  The agenda begins with the first state and
grows by the targets of moves.  In a closed automaton all of these exist, and so
does every state that any search on the way will ever ask for.

Stamps that a retreat puts back need no argument.  A log only holds numbers of
states that were marked.
-/

variable {automaton : Automaton} {search next last : Search automaton}
  {consumed : Option Consumption} {verdict : Verdict}

/-- Every state that is still to be entered exists. -/
def Inside (search : Search automaton) : Prop :=
  forall id, .enter id ∈ search.agenda -> id < automaton.size

theorem inside_start {id : StateId} (inside : id < automaton.size) (input : List UInt8) :
    (start automaton id input).Inside := by
  intro other member
  cases List.mem_singleton.1 member
  exact inside

namespace Inside

theorem step (inside : search.Inside) (closed : automaton.Closed)
    (continues : Continues search consumed next) : next.Inside := by
  intro target member
  cases continues with
  | retreat => exact inside target (List.mem_cons_of_mem _ member)
  | skip _ _ => exact inside target (List.mem_cons_of_mem _ member)
  | fork _ _ found _ _ =>
      rcases List.mem_append.1 member with forked | later
      · rcases List.mem_map.1 forked with ⟨other, epsilon, same⟩
        cases same
        exact (closed _ (Array.mem_of_getElem? found)).2 _ epsilon
      · exact inside target (List.mem_cons_of_mem _ later)
  | consume _ _ found reads =>
      rcases List.mem_cons.1 member with now | later
      · cases now
        exact (closed _ (Array.mem_of_getElem? found)).1 _ (State.mem_edges_of_next? reads)
      · rcases List.mem_cons.1 later with impossible | further
        · contradiction
        · exact inside target (List.mem_cons_of_mem _ further)

theorem ne_strayed (inside : search.Inside) (finishes : Finishes search verdict) (id : StateId) :
    verdict ≠ .strayed id := by
  intro strayed
  cases finishes with
  | rejected => contradiction
  | accepted _ _ => contradiction
  | strayed outside => exact outside (inside _ List.mem_cons_self)

end Inside

/-! ## Along a run -/

theorem Inside.becomes (inside : search.Inside) (closed : automaton.Closed)
    (reached : search.Becomes last) : last.Inside :=
  reached.keeps (fun continues holds => holds.step closed continues) inside

theorem Inside.verdict_ne_strayed (inside : search.Inside) (closed : automaton.Closed) (id : StateId) :
    search.verdict ≠ .strayed id := by
  rcases exists_becomes_finished search with ⟨last, reached, finishes⟩
  exact (inside.becomes closed reached).ne_strayed finishes id

end Search
end BytePattern
