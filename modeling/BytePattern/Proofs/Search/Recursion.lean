import Mathlib.Data.Finset.Card
import Mathlib.Data.Finset.Range
import Mathlib.Data.Finset.SDiff
import BytePattern.Proofs.Automaton.Construction
import BytePattern.Proofs.Search.Steps
import BytePattern.Recognizer

namespace BytePattern

/-!
# The search as a recursion

What a search does is described most easily by a recursive procedure.  To
attempt a state is to give up if it was visited already, and otherwise to visit
it and to attempt what follows from it.  Behind a byte that is read the attempt
begins with a new and empty set.  Along the moves without reading, one set is
handed from each target to the next.

A search has neither the recursion nor the sets.  The agenda stands for the
calls that have not returned.  The marks of the innermost level stand for the
set that is current, while those of the levels around it may be overwritten, and
stand for nothing until a retreat restores them.

The argument follows the recursion.  Before any agenda, the steps that enter a
state consume what the attempt reports.  If the attempt fails, they leave that
agenda behind, with marks that record the reported set, and with the levels
around them as they were.
-/

namespace Search

/-! ## Attempts -/

/-- What an attempt comes to.  A later attempt at the same position is handed
the states that were visited, among which are all that this one was handed. -/
structure Report (before : Finset StateId) where
  accepted : Bool
  /-- Every byte that was read, in order, whether or not it was given back. -/
  trail : List Consumption
  visited : Finset StateId
  grows : before ⊆ visited

namespace Report

variable {before between : Finset StateId}

def failure (before : Finset StateId) : Report before :=
  ⟨false, [], before, Finset.Subset.refl before⟩

/-- The same report, as seen by one who was handed fewer states. -/
def since (report : Report between) (grown : before ⊆ between) : Report before :=
  { report with grows := grown.trans report.grows }

/-- Two attempts, of which the second is made because the first has failed. -/
def followedBy (first : Report before) (rest : Report first.visited) : Report before :=
  { rest.since first.grows with trail := first.trail ++ rest.trail }

def verdict (report : Report before) : Verdict :=
  if report.accepted then .accepted else .rejected

end Report

/-- How many states an attempt may still visit at one position. -/
def unvisited (automaton : Automaton) (visited : Finset StateId) : Nat :=
  (Finset.range automaton.size \ visited).card

theorem unvisited_le (automaton : Automaton) {before after : Finset StateId}
    (grows : before ⊆ after) : unvisited automaton after <= unvisited automaton before :=
  Finset.card_le_card (Finset.sdiff_subset_sdiff (Finset.Subset.refl _) grows)

theorem unvisited_insert_lt {automaton : Automaton} {visited : Finset StateId} {id : StateId}
    {state : State} (found : automaton.state? id = some state) (unseen : id ∉ visited) :
    unvisited automaton (insert id visited) < unvisited automaton visited := by
  have inside := Finset.mem_range.2 (Automaton.lt_size_of_state? found)
  apply Finset.card_lt_card
  rw [Finset.sdiff_insert]
  exact Finset.erase_ssubset (Finset.mem_sdiff.2 ⟨inside, unseen⟩)

mutual

/-- Attempts to accept the input from a position on, beginning at a state. -/
def attempt (automaton : Automaton) (input : List UInt8) (id : StateId) (position : Nat)
    (visited : Finset StateId) : Report visited :=
  if _ : id ∈ visited then .failure visited
  else
    match _ : automaton.state? id with
    | none => .failure visited
    | some state =>
      match _ : input[position]? with
      | none =>
        if state.terminal then ⟨true, [], insert id visited, Finset.subset_insert id visited⟩
        else
          (attemptAll automaton input state.epsilons position (insert id visited)).since
            (Finset.subset_insert id visited)
      | some byte =>
        match state.next? byte with
        | some target =>
          let behind := attempt automaton input target (position + 1) ∅
          ⟨behind.accepted, ⟨id, byte, target, position⟩ :: behind.trail, insert id visited,
            Finset.subset_insert id visited⟩
        | none =>
          (attemptAll automaton input state.epsilons position (insert id visited)).since
            (Finset.subset_insert id visited)
termination_by (input.length - position, unvisited automaton visited, 0)
decreasing_by
  · exact Prod.Lex.right _ (Prod.Lex.left _ _ (unvisited_insert_lt ‹_› ‹_›))
  · have within : position < input.length := (List.getElem?_eq_some_iff.1 ‹_›).1
    exact Prod.Lex.left _ _ (Nat.sub_succ_lt_self _ _ within)
  · exact Prod.Lex.right _ (Prod.Lex.left _ _ (unvisited_insert_lt ‹_› ‹_›))

/-- Attempts one state after the other, until one of them leads to acceptance. -/
def attemptAll (automaton : Automaton) (input : List UInt8) (targets : List StateId)
    (position : Nat) (visited : Finset StateId) : Report visited :=
  match targets with
  | [] => .failure visited
  | target :: later =>
    let first := attempt automaton input target position visited
    if first.accepted then first
    else first.followedBy (attemptAll automaton input later position first.visited)
termination_by (input.length - position, unvisited automaton visited, targets.length)
decreasing_by
  · exact Prod.Lex.right _ (Prod.Lex.right _ (Nat.succ_pos _))
  · exact Prod.Lex.right _
      (Prod.Lex.right' _ (unvisited_le automaton first.grows) (Nat.lt_succ_self _))

end

/-! ## The marks of the innermost level -/

namespace Marks

variable {capacity : Nat} {marks : Marks capacity} {position : Nat} {visited : Finset StateId}

/-- The states marked at a position are those of a set.  No stamp lies ahead of
the position, so that the next one begins with no state marked. -/
structure Records (marks : Marks capacity) (position : Nat) (visited : Finset StateId) : Prop where
  present : forall id : Fin capacity, marks.contains id position = true <-> id.val ∈ visited
  past : forall (id : Fin capacity) (stamped : Nat), marks.contains id stamped = true ->
    stamped <= position

namespace Records

theorem empty (capacity : Nat) : (empty capacity).Records 0 ∅ where
  present := by simp [Marks.empty, contains]
  past := by simp [Marks.empty, contains]

theorem contains_eq_false (records : marks.Records position visited) {id : Fin capacity}
    (unseen : id.val ∉ visited) : marks.contains id position = false :=
  Bool.eq_false_iff.2 fun marked => unseen ((records.present id).1 marked)

theorem insert (records : marks.Records position visited) (id : Fin capacity) :
    (marks.insert id position).Records position (Insert.insert id.val visited) where
  present := by
    intro other
    rw [contains_insert_iff, records.present, Finset.mem_insert, Fin.ext_iff]
    grind
  past := by
    intro other stamped marked
    rcases contains_insert_iff.1 marked with ⟨_, own⟩ | ⟨_, before⟩
    · exact Nat.le_of_eq own
    · exact records.past other stamped before

theorem openLevel (records : marks.Records position visited) :
    marks.openLevel.Records (position + 1) ∅ where
  present := by
    intro id
    refine iff_of_false (fun marked => ?_) (Finset.notMem_empty _)
    exact Nat.not_succ_le_self position (records.past id (position + 1) marked)
  past := fun id stamped marked => Nat.le_succ_of_le (records.past id stamped marked)

end Records
end Marks

/-! ## Steps that carry out an attempt -/

variable {automaton : Automaton}

/-- The search carries out what is reported, in front of an agenda that it does
not touch. -/
inductive Enacts (search : Search automaton) (agenda : List Task) {before : Finset StateId}
    (report : Report before) : Prop where
  | accepted {last : Search automaton} (accepts : report.accepted = true)
      (follows : Follows search report.trail last) (finished : last.step = .finished .accepted)
  /-- The levels around the innermost one are seen by closing it. -/
  | failed {marks : Marks automaton.size} (fails : report.accepted = false)
      (follows : Follows search report.trail ⟨agenda, marks, search.position, search.remaining⟩)
      (records : marks.Records search.position report.visited)
      (restores : marks.closeLevel = search.marks.closeLevel)

namespace Enacts

variable {agenda : List Task} {marks : Marks automaton.size} {position : Nat}
  {remaining : List UInt8} {visited : Finset StateId} {id target : StateId} {state : State}
  {byte : UInt8}

theorem traced_eq {search : Search automaton} {before : Finset StateId} {report : Report before}
    (enacts : Enacts search [] report) : search.traced = (report.verdict, report.trail) := by
  cases enacts with
  | accepted accepts follows finished =>
      rw [follows.traced_eq finished, Report.verdict, if_pos accepts]
  | failed fails follows _ _ =>
      rw [follows.traced_eq rfl, Report.verdict, if_neg (Bool.eq_false_iff.1 fails)]

theorem skip (inside : id < automaton.size) (records : marks.Records position visited)
    (seen : id ∈ visited) :
    Enacts ⟨.enter id :: agenda, marks, position, remaining⟩ agenda (.failure visited) := by
  have marked := (records.present ⟨id, inside⟩).2 seen
  exact .failed rfl (.head (.skip inside marked) (.refl _)) records rfl

theorem accept (inside : id < automaton.size)
    (absent : marks.contains ⟨id, inside⟩ position = false)
    (found : automaton.state? id = some state) (terminal : state.terminal = true) :
    Enacts ⟨.enter id :: agenda, marks, position, []⟩ agenda
      (⟨true, [], insert id visited, Finset.subset_insert id visited⟩ : Report visited) := by
  refine .accepted rfl (.refl _) ?_
  rw [step_enter inside absent found]
  simp only [leave, terminal, if_true]

theorem fork {report : Report (insert id visited)} (inside : id < automaton.size)
    (absent : marks.contains ⟨id, inside⟩ position = false)
    (found : automaton.state? id = some state)
    (silent : remaining = [] -> state.terminal = false)
    (stuck : forall byte rest, remaining = byte :: rest -> state.next? byte = none)
    (forked : Enacts ⟨fork state agenda, marks.insert ⟨id, inside⟩ position, position, remaining⟩
      agenda report) :
    Enacts ⟨.enter id :: agenda, marks, position, remaining⟩ agenda
      (report.since (Finset.subset_insert id visited)) := by
  have forks : Continues ⟨.enter id :: agenda, marks, position, remaining⟩ none
      ⟨Search.fork state agenda, marks.insert ⟨id, inside⟩ position, position, remaining⟩ :=
    .fork inside absent found silent stuck
  cases forked with
  | accepted accepts follows finished => exact .accepted accepts (.head forks follows) finished
  | failed fails follows records restores =>
      exact .failed fails (.head forks follows) records
        (restores.trans (marks.closeLevel_insert ⟨id, inside⟩ position))

/-- Reading a byte is paid back by a retreat if nothing behind it is accepted.
Closing the level that was opened for it leaves the state marked, and nothing
else that was not marked before. -/
theorem consume {report : Report ∅} (inside : id < automaton.size)
    (records : marks.Records position visited) (unseen : id ∉ visited)
    (found : automaton.state? id = some state) (reads : state.next? byte = some target)
    (behind : Enacts ⟨.enter target :: .retreat byte :: agenda,
      (marks.insert ⟨id, inside⟩ position).openLevel, position + 1, remaining⟩
      (.retreat byte :: agenda) report) :
    Enacts ⟨.enter id :: agenda, marks, position, byte :: remaining⟩ agenda
      (⟨report.accepted, ⟨id, byte, target, position⟩ :: report.trail, insert id visited,
        Finset.subset_insert id visited⟩ : Report visited) := by
  have reading : Continues ⟨.enter id :: agenda, marks, position, byte :: remaining⟩
      (some ⟨id, byte, target, position⟩) ⟨.enter target :: .retreat byte :: agenda,
        (marks.insert ⟨id, inside⟩ position).openLevel, position + 1, remaining⟩ :=
    .consume inside (records.contains_eq_false unseen) found reads
  cases behind with
  | accepted accepts follows finished => exact .accepted accepts (.head reading follows) finished
  | @failed inner fails follows _ restores =>
      -- Whatever was stamped behind the byte, the level around it is as it was left.
      have closed : inner.closeLevel = marks.insert ⟨id, inside⟩ position :=
        restores.trans (Marks.closeLevel_openLevel _)
      have retreats : Follows ⟨.retreat byte :: agenda, inner, position + 1, remaining⟩ []
          ⟨agenda, marks.insert ⟨id, inside⟩ position, position, byte :: remaining⟩ :=
        closed ▸ .head .retreat (.refl _)
      have whole := Follows.head reading (follows.trans retreats)
      rw [List.append_nil] at whole
      exact .failed fails whole (records.insert ⟨id, inside⟩)
        (marks.closeLevel_insert ⟨id, inside⟩ position)

/-- After an attempt that has failed, the search is ready for the next one. -/
theorem followedBy {search : Search automaton} {between : List Task} {before : Finset StateId}
    {first : Report before} {rest : Report first.visited} (one : Enacts search between first)
    (fails : first.accepted = false)
    (two : forall marks : Marks automaton.size, marks.Records search.position first.visited ->
      Enacts ⟨between, marks, search.position, search.remaining⟩ agenda rest) :
    Enacts search agenda (first.followedBy rest) := by
  cases one with
  | accepted accepts _ _ => exact absurd accepts (Bool.eq_false_iff.1 fails)
  | failed _ follows records restores =>
      cases two _ records with
      | accepted accepts followsRest finished =>
          exact .accepted accepts (follows.trans followsRest) finished
      | failed failsRest followsRest recordsRest restoresRest =>
          exact .failed failsRest (follows.trans followsRest) recordsRest
            (restoresRest.trans restores)

end Enacts

/-! ## Following the recursion -/

variable {input : List UInt8}

/-- What is shown of an attempt, whatever the agenda behind it. -/
def Attempted (automaton : Automaton) (input : List UInt8) (id : StateId) (position : Nat)
    (visited : Finset StateId) (report : Report visited) : Prop :=
  id < automaton.size -> forall (marks : Marks automaton.size) (agenda : List Task),
    marks.Records position visited ->
      Enacts ⟨.enter id :: agenda, marks, position, input.drop position⟩ agenda report

def AttemptedAll (automaton : Automaton) (input : List UInt8) (targets : List StateId)
    (position : Nat) (visited : Finset StateId) (report : Report visited) : Prop :=
  (forall target, target ∈ targets -> target < automaton.size) ->
    forall (marks : Marks automaton.size) (agenda : List Task), marks.Records position visited ->
      Enacts ⟨targets.map .enter ++ agenda, marks, position, input.drop position⟩ agenda report

/-- A state that is not left by a byte is left by all its moves without reading. -/
private theorem attempted_of_forked (closed : automaton.Closed) {id : StateId} {state : State}
    {position : Nat} {visited : Finset StateId} {report : Report (insert id visited)}
    (unseen : id ∉ visited) (found : automaton.state? id = some state)
    (silent : input[position]? = none -> state.terminal = false)
    (stuck : forall byte, input[position]? = some byte -> state.next? byte = none)
    (forked : AttemptedAll automaton input state.epsilons position (insert id visited) report) :
    Attempted automaton input id position visited
      (report.since (Finset.subset_insert id visited)) := by
  intro inside marks agenda records
  have targets := (closed state (Array.mem_of_getElem? found)).2
  refine .fork inside (records.contains_eq_false unseen) found ?_ ?_
    (forked targets _ agenda (records.insert ⟨id, inside⟩))
  · intro ended
    exact silent (List.getElem?_eq_none (List.drop_eq_nil_iff.1 ended))
  · intro byte rest split
    refine stuck byte ?_
    rw [← List.head?_drop, split, List.head?_cons]

/-- The steps of a search carry out every attempt, by induction on the recursion. -/
theorem attempted (closed : automaton.Closed) (input : List UInt8) :
    (forall id position visited,
      Attempted automaton input id position visited (attempt automaton input id position visited)) ∧
    forall targets position visited, AttemptedAll automaton input targets position visited
      (attemptAll automaton input targets position visited) := by
  -- One case for each branch of the recursion, with the branch in place of the call.
  refine attempt.mutual_induct_unfolding automaton input (Attempted automaton input)
    (AttemptedAll automaton input) ?seen ?missing ?terminal ?silent ?reads ?stuck ?none ?first ?later
  case seen =>
    intro id position visited seen inside marks agenda records
    exact .skip inside records seen
  case missing =>
    intro id position visited unseen missing inside
    exact absurd inside (Nat.not_lt.2 (Array.getElem?_eq_none_iff.1 missing))
  case terminal =>
    intro id position visited unseen state found ended terminal inside marks agenda records
    rw [List.drop_eq_nil_of_le (List.getElem?_eq_none_iff.1 ended)]
    exact .accept inside (records.contains_eq_false unseen) found terminal
  case silent =>
    intro id position visited unseen state found ended silent forked
    refine attempted_of_forked closed unseen found (fun _ => Bool.eq_false_iff.2 silent) ?_ forked
    intro byte available
    rw [ended] at available
    contradiction
  case reads =>
    intro id position visited unseen state found byte available target reads _ behind inside marks
      agenda records
    have targetInside := (closed state (Array.mem_of_getElem? found)).1 _ (State.mem_edges_of_next? reads)
    rcases List.getElem?_eq_some_iff.1 available with ⟨within, same⟩
    rw [List.drop_eq_getElem_cons within, same]
    exact .consume inside records unseen found reads
      (behind targetInside _ _ (records.insert ⟨id, inside⟩).openLevel)
  case stuck =>
    intro id position visited unseen state found byte available stuck forked
    refine attempted_of_forked closed unseen found ?_ ?_ forked
    · intro ended
      rw [ended] at available
      contradiction
    · intro other same
      rw [available] at same
      cases same
      exact stuck
  case none =>
    intro position visited _ marks agenda records
    exact .failed rfl (.refl _) records rfl
  case first =>
    intro position visited target later _ accepts first inside marks agenda records
    cases first (inside target List.mem_cons_self) marks (later.map .enter ++ agenda) records with
    | accepted _ follows finished => exact .accepted accepts follows finished
    | failed fails _ _ _ => exact absurd accepts (Bool.eq_false_iff.1 fails)
  case later =>
    intro position visited target later _ fails first rest inside marks agenda records
    have one := first (inside target List.mem_cons_self) marks (later.map .enter ++ agenda) records
    refine one.followedBy (Bool.eq_false_iff.2 fails) fun kept recordsKept => ?_
    exact rest (fun other member => inside other (List.mem_cons_of_mem target member)) kept agenda
      recordsKept

end Search

namespace Recognizer

open Search (start attempt)

/-- In every automaton that mentions no state but its own, and hence in every
one that is assembled, a search from any state answers what the recursive
procedure answers, and consumes the same bytes in the same order. -/
theorem search_refines_recursion :
    (forall (tokens : List Token) (recognizer : Recognizer),
      assemble tokens = .ok recognizer -> recognizer.automaton.Closed) ∧
    forall recognizer : Recognizer, recognizer.automaton.Closed ->
      forall id : StateId, id < recognizer.automaton.size -> forall input : List UInt8,
        recognizer.acceptsFrom id input =
            .ok (attempt recognizer.automaton input id 0 ∅).accepted ∧
          (start recognizer.automaton id input).trail =
            (attempt recognizer.automaton input id 0 ∅).trail := by
  constructor
  · intro tokens recognizer assembled
    exact (tidy_of_assemble assembled).closed
  · intro recognizer closed id inside input
    have enacts := ((Search.attempted closed input).1 id 0 ∅ inside _ [] (.empty _)).traced_eq
    change (start recognizer.automaton id input).traced = _ at enacts
    rw [Search.traced_eq] at enacts
    rcases Prod.mk.inj enacts with ⟨sameVerdict, sameTrail⟩
    refine ⟨?_, sameTrail⟩
    rw [acceptsFrom, sameVerdict, Search.Report.verdict]
    cases (attempt recognizer.automaton input id 0 ∅).accepted <;> rfl

/-- Behind the one byte, the inner repetition is entered at the next position,
which overwrites its mark.  It is met once more when the byte was given back,
and is not entered then, as the retreat has restored the mark. -/
theorem search_refines_recursion_restored_mark :
    exists recognizer : Recognizer,
      assemble [.literal 0x61, .operator .star, .operator .star, .literal 0x62, .operator .concat] =
        .ok recognizer ∧
      recognizer.automaton.Closed ∧ recognizer.root.entry < recognizer.automaton.size ∧
      recognizer.acceptsFrom recognizer.root.entry [0x61] =
        .ok (attempt recognizer.automaton [0x61] recognizer.root.entry 0 ∅).accepted ∧
      (attempt recognizer.automaton [0x61] recognizer.root.entry 0 ∅).trail = [⟨0, 0x61, 1, 0⟩] := by
  have assembled : exists recognizer : Recognizer,
      assemble [.literal 0x61, .operator .star, .operator .star, .literal 0x62, .operator .concat] =
        .ok recognizer ∧
      recognizer.root.entry < recognizer.automaton.size ∧
      (start recognizer.automaton recognizer.root.entry [0x61]).trail = [⟨0, 0x61, 1, 0⟩] :=
    ⟨_, rfl, by decide, by decide +kernel⟩
  rcases assembled with ⟨recognizer, assembled, inside, trail⟩
  have closed := search_refines_recursion.1 _ recognizer assembled
  rcases search_refines_recursion.2 recognizer closed _ inside [0x61] with ⟨sameAnswer, sameTrail⟩
  exact ⟨recognizer, assembled, closed, inside, sameAnswer, sameTrail ▸ trail⟩

end Recognizer
end BytePattern
