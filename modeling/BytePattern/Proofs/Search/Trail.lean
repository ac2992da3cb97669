import Mathlib.Data.List.Chain
import BytePattern.Proofs.Search.Decision
import BytePattern.Proofs.Search.Recursion

namespace BytePattern

/-!
# What a trail tells

The trail of a search holds every byte that was read, and most of its lines may
belong to attempts that were given up.  It still certifies the verdict.

A line is only there because a path leads to it, and a search that rejects has
read every byte that some path leads to.  A search that accepts has no later
line at any position than the one on its path, since whatever was tried there
before was given up, and what is tried behind a byte is further on.  The last
lines of all positions therefore are an accepting path.

The search carries out a recursion, and what is shown here is shown along that
recursion.
-/

namespace Search

variable {automaton : Automaton} {input : List UInt8}

/-! ## Bytes that can be read -/

/-- Some path from the state, which stands at the given position with the given
input left, reads a byte in the way that the line tells. -/
inductive Possible (automaton : Automaton) :
    StateId -> Nat -> List UInt8 -> Consumption -> Prop where
  | here {id target : StateId} {state : State} {byte : UInt8} {position : Nat} {rest : List UInt8} :
      automaton.state? id = some state -> state.next? byte = some target ->
        Possible automaton id position (byte :: rest) ⟨id, byte, target, position⟩
  | epsilon {id target : StateId} {state : State} {position : Nat} {remaining : List UInt8}
      {line : Consumption} :
      automaton.state? id = some state -> target ∈ state.epsilons ->
        Possible automaton target position remaining line ->
          Possible automaton id position remaining line
  | edge {id target : StateId} {state : State} {byte : UInt8} {position : Nat} {rest : List UInt8}
      {line : Consumption} :
      automaton.state? id = some state -> state.next? byte = some target ->
        Possible automaton target (position + 1) rest line ->
          Possible automaton id position (byte :: rest) line

namespace Possible

variable {id : StateId} {position : Nat} {remaining : List UInt8} {line : Consumption}

/-- What can be read is read at the end of a path that spells what was read
before. -/
theorem iff_exists_path :
    Possible automaton id position remaining line <->
      exists front rest state, remaining = front ++ line.byte :: rest ∧
        line.position = position + front.length ∧ automaton.Path id front line.source ∧
        automaton.state? line.source = some state ∧ state.next? line.byte = some line.target := by
  constructor
  · intro possible
    induction possible with
    | here found reads => exact ⟨[], _, _, rfl, rfl, .refl _, found, reads⟩
    | epsilon found member _ ih =>
        rcases ih with ⟨front, rest, state, split, place, path, last⟩
        exact ⟨front, rest, state, split, place, .epsilon found member path, last⟩
    | @edge _ _ _ byte _ _ _ found reads _ ih =>
        rcases ih with ⟨front, rest, state, split, place, path, last⟩
        refine ⟨byte :: front, rest, state, congrArg (byte :: ·) split, ?_, .edge found reads path, last⟩
        rw [place, List.length_cons]
        omega
  · rintro ⟨front, rest, state, split, place, path, found, reads⟩
    rcases line with ⟨source, byte, target, place⟩
    dsimp only at *
    subst split place
    induction path generalizing position with
    | refl id => exact .here found reads
    | epsilon foundFirst member _ ih => exact .epsilon foundFirst member (ih found)
    | @edge id next last stateHere read word foundFirst readsFirst _ ih =>
        have onward : Possible automaton next (position + 1) (word ++ byte :: rest)
            ⟨last, byte, target, position + 1 + word.length⟩ := ih found
        have place : position + (read :: word).length = position + 1 + word.length := by
          rw [List.length_cons]
          omega
        rw [place]
        exact .edge foundFirst readsFirst onward

/-- Counted from the beginning of an input, the line itself says where the path
ends. -/
theorem iff_path_take :
    Possible automaton id 0 input line <->
      input[line.position]? = some line.byte ∧
        (exists state, automaton.state? line.source = some state ∧
          state.next? line.byte = some line.target) ∧
        automaton.Path id (input.take line.position) line.source := by
  rw [iff_exists_path]
  constructor
  · rintro ⟨front, rest, state, split, place, path, found, reads⟩
    rw [Nat.zero_add] at place
    rw [split, place]
    refine ⟨?_, ⟨state, found, reads⟩, ?_⟩
    · rw [List.getElem?_append_right (Nat.le_refl _), Nat.sub_self, List.getElem?_cons_zero]
    · rwa [List.take_left]
  · rintro ⟨read, ⟨state, found, reads⟩, path⟩
    rcases List.getElem?_eq_some_iff.1 read with ⟨within, same⟩
    refine ⟨input.take line.position, input.drop (line.position + 1), state, ?_, ?_, path, found, reads⟩
    · rw [← same, List.cons_getElem_drop_succ, List.take_append_drop]
    · rw [List.length_take, Nat.zero_add, Nat.min_eq_left (Nat.le_of_lt within)]

end Possible

/-! ## Induction over attempts -/

/-- What holds of attempts is shown for each way in which they come about.  A
state is left without reading for either of two reasons, which are one case. -/
theorem attempt_induction (automaton : Automaton) (input : List UInt8)
    (one : forall (_ : StateId) (_ : Nat) (visited : Finset StateId), Report visited -> Prop)
    (all : forall (_ : List StateId) (_ : Nat) (visited : Finset StateId), Report visited -> Prop)
    (fail : forall id position visited, id ∈ visited ∨ automaton.state? id = none ->
      one id position visited (.failure visited))
    (accept : forall id position visited state, automaton.state? id = some state ->
      input[position]? = none -> state.terminal = true ->
        one id position visited ⟨true, [], insert id visited, Finset.subset_insert id visited⟩)
    (fork : forall id position visited state (report : Report (insert id visited)),
      automaton.state? id = some state ->
      (forall byte, input[position]? = some byte -> state.next? byte = none) ->
        all state.epsilons position (insert id visited) report ->
          one id position visited (report.since (Finset.subset_insert id visited)))
    (consume : forall id position visited state byte target (behind : Report ∅), id ∉ visited ->
      automaton.state? id = some state -> input[position]? = some byte ->
      state.next? byte = some target -> one target (position + 1) ∅ behind ->
        one id position visited ⟨behind.accepted, ⟨id, byte, target, position⟩ :: behind.trail,
          insert id visited, Finset.subset_insert id visited⟩)
    (none : forall position visited, all [] position visited (.failure visited))
    (first : forall target later position visited (report : Report visited),
      report.accepted = true -> one target position visited report ->
        all (target :: later) position visited report)
    (followed : forall target later position visited (report : Report visited)
      (rest : Report report.visited), report.accepted = false ->
      one target position visited report -> all later position report.visited rest ->
        all (target :: later) position visited (report.followedBy rest)) :
    (forall id position visited,
      one id position visited (attempt automaton input id position visited)) ∧
    forall targets position visited,
      all targets position visited (attemptAll automaton input targets position visited) := by
  refine attempt.mutual_induct_unfolding automaton input one all ?seen ?missing ?terminal ?silent
    ?reads ?stuck ?none ?first ?later
  case seen => exact fun id position visited seen => fail id position visited (Or.inl seen)
  case missing => exact fun id position visited _ missing => fail id position visited (Or.inr missing)
  case terminal =>
    exact fun id position visited _ state found ended terminal =>
      accept id position visited state found ended terminal
  case silent =>
    intro id position visited _ state found ended _ forked
    refine fork id position visited state _ found ?_ forked
    intro byte available
    rw [ended] at available
    contradiction
  case reads =>
    intro id position visited unseen state found byte available target reads _ behind
    exact consume id position visited state byte target _ unseen found available reads behind
  case stuck =>
    intro id position visited _ state found byte available stuck forked
    refine fork id position visited state _ found ?_ forked
    intro other same
    rw [available] at same
    cases same
    exact stuck
  case none => exact none
  case first =>
    intro position visited target later _ accepts begun
    exact first target later position visited _ accepts begun
  case later =>
    intro position visited target later _ fails begun rest
    exact followed target later position visited _ _ (Bool.eq_false_iff.2 fails) begun rest

theorem drop_eq_cons {position : Nat} {byte : UInt8} (available : input[position]? = some byte) :
    input.drop position = byte :: input.drop (position + 1) := by
  rcases List.getElem?_eq_some_iff.1 available with ⟨within, same⟩
  rw [List.drop_eq_getElem_cons within, same]

private theorem getElem?_of_drop {position : Nat} {byte : UInt8} {rest : List UInt8}
    (split : input.drop position = byte :: rest) : input[position]? = some byte := by
  rw [← List.head?_drop, split, List.head?_cons]

/-! ## Only what can be read is logged -/

theorem possible_of_mem_trail (automaton : Automaton) (input : List UInt8) :
    (forall id position visited line, line ∈ (attempt automaton input id position visited).trail ->
      Possible automaton id position (input.drop position) line) ∧
    forall targets position visited line,
      line ∈ (attemptAll automaton input targets position visited).trail ->
        exists target, target ∈ targets ∧
          Possible automaton target position (input.drop position) line := by
  refine attempt_induction automaton input
    (fun id position _ report => forall line, line ∈ report.trail ->
      Possible automaton id position (input.drop position) line)
    (fun targets position _ report => forall line, line ∈ report.trail ->
      exists target, target ∈ targets ∧ Possible automaton target position (input.drop position) line)
    ?fail ?accept ?fork ?consume ?none ?first ?followed
  case fail => exact fun _ _ _ _ _ impossible => absurd impossible List.not_mem_nil
  case accept => exact fun _ _ _ _ _ _ _ _ impossible => absurd impossible List.not_mem_nil
  case fork =>
    intro id position visited state report found _ forked line member
    rcases forked line member with ⟨target, epsilon, possible⟩
    exact .epsilon found epsilon possible
  case consume =>
    intro id position visited state byte target behind _ found available reads possible line member
    rw [drop_eq_cons available]
    rcases List.mem_cons.1 member with now | later
    · exact now ▸ .here found reads
    · exact .edge found reads (possible line later)
  case none => exact fun _ _ _ impossible => absurd impossible List.not_mem_nil
  case first =>
    exact fun target _ _ _ _ _ possible line member =>
      ⟨target, List.mem_cons_self, possible line member⟩
  case followed =>
    intro target later position visited report rest _ possible possibleRest line member
    rcases List.mem_append.1 member with early | late
    · exact ⟨target, List.mem_cons_self, possible line early⟩
    · rcases possibleRest line late with ⟨other, among, found⟩
      exact ⟨other, List.mem_cons_of_mem target among, found⟩

/-! ## The order of the lines -/

/-- The lines of an attempt begin at its position, they go on by at most one
position at a time, and never go back behind the beginning. -/
structure Ordered (position : Nat) (trail : List Consumption) : Prop where
  begins : forall line, trail.head? = some line -> line.position = position
  onward : trail.IsChain fun line next => next.position <= line.position + 1
  behind : forall line, line ∈ trail -> position <= line.position

namespace Ordered

variable {position : Nat} {trail front back : List Consumption}

theorem nil : Ordered position [] where
  begins := fun _ impossible => by contradiction
  onward := .nil
  behind := fun _ impossible => absurd impossible List.not_mem_nil

theorem cons {line : Consumption} (place : line.position = position)
    (ordered : Ordered (position + 1) trail) : Ordered position (line :: trail) where
  begins := by
    intro first same
    cases same
    exact place
  onward := by
    refine List.isChain_cons.2 ⟨?_, ordered.onward⟩
    intro next begun
    rw [ordered.begins next begun, place]
  behind := by
    intro other member
    rcases List.mem_cons.1 member with now | later
    · exact Nat.le_of_eq (now ▸ place.symm)
    · exact Nat.le_of_succ_le (ordered.behind other later)

theorem append (first : Ordered position front) (second : Ordered position back) :
    Ordered position (front ++ back) where
  begins := by
    intro line begun
    rw [List.head?_append] at begun
    cases found : front.head? with
    | some other =>
        rw [found] at begun
        cases begun
        exact first.begins line found
    | none =>
        rw [found] at begun
        exact second.begins line begun
  onward := by
    refine List.isChain_append.2 ⟨first.onward, second.onward, ?_⟩
    intro last ended next begun
    rw [second.begins next begun]
    exact Nat.le_succ_of_le (first.behind last (List.mem_of_getLast? ended))
  behind := by
    intro line member
    rcases List.mem_append.1 member with early | late
    · exact first.behind line early
    · exact second.behind line late

end Ordered

/-! ## The last line of each position -/

/-- The last byte that was read at a position. -/
def lastAt? (trail : List Consumption) (position : Nat) : Option Consumption :=
  trail.reverse.find? fun line => line.position = position

theorem lastAt?_append (front back : List Consumption) (position : Nat) :
    lastAt? (front ++ back) position = (lastAt? back position).or (lastAt? front position) := by
  rw [lastAt?, List.reverse_append, List.find?_append]
  rfl

theorem Ordered.lastAt?_eq_none {position earlier : Nat} {trail : List Consumption}
    (ordered : Ordered position trail) (before : earlier < position) : lastAt? trail earlier = none := by
  rw [lastAt?, List.find?_eq_none]
  intro line member same
  have behind := ordered.behind line (List.mem_reverse.1 member)
  rw [of_decide_eq_true same] at behind
  exact Nat.not_le.2 before behind

/-- The lines, one for each byte of the input that is left, are what is read on
an accepting path from the state.  Between them the path goes on without
reading. -/
inductive Route (automaton : Automaton) :
    StateId -> Nat -> List UInt8 -> List Consumption -> Prop where
  | arrive {id : StateId} {position : Nat} :
      automaton.AcceptsFrom id [] -> Route automaton id position [] []
  | read {id source target : StateId} {state : State} {byte : UInt8} {position : Nat}
      {rest : List UInt8} {lines : List Consumption} :
      automaton.Path id [] source -> automaton.state? source = some state ->
        state.next? byte = some target -> Route automaton target (position + 1) rest lines ->
          Route automaton id position (byte :: rest) (⟨source, byte, target, position⟩ :: lines)

namespace Route

variable {id target : StateId} {state : State} {position : Nat} {remaining : List UInt8}
  {lines : List Consumption}

theorem epsilon (found : automaton.state? id = some state) (member : target ∈ state.epsilons)
    (route : Route automaton target position remaining lines) :
    Route automaton id position remaining lines := by
  cases route with
  | arrive accepts =>
      rcases accepts with ⟨last, lastState, path, lastFound, terminal⟩
      exact .arrive ⟨last, lastState, .epsilon found member path, lastFound, terminal⟩
  | read path foundSource reads rest => exact .read (.epsilon found member path) foundSource reads rest

/-- There is one line at each position. -/
theorem map_position (route : Route automaton id position remaining lines) :
    lines.map Consumption.position = List.range' position remaining.length := by
  induction route with
  | arrive _ => rfl
  | read _ _ _ _ ih => rw [List.map_cons, ih, List.length_cons, List.range'_succ]

end Route

/-- Each line of the route is the last one of the trail at its position. -/
def Survives (trail route : List Consumption) : Prop :=
  forall line, line ∈ route -> lastAt? trail line.position = some line

/-- What was tried before is overruled, if the route has survived what came
after it. -/
theorem Survives.append {trail route : List Consumption} (survives : Survives trail route)
    (earlier : List Consumption) : Survives (earlier ++ trail) route := by
  intro line member
  rw [lastAt?_append, survives line member, Option.some_or]

/-- The beginning of a route survives, because everything behind it is further
on. -/
theorem Survives.cons {trail route : List Consumption} {line : Consumption}
    (survives : Survives trail route) (ordered : Ordered (line.position + 1) trail) :
    Survives (line :: trail) (line :: route) := by
  intro other member
  rcases List.mem_cons.1 member with now | later
  · subst now
    rw [← List.singleton_append, lastAt?_append, ordered.lastAt?_eq_none (Nat.lt_succ_self _),
      Option.none_or]
    simp [lastAt?]
  · exact survives.append [line] other later

/-- The lines of an attempt are in order, and if it is accepted, a route has
survived among them. -/
structure Certifies {before : Finset StateId} (isRoute : List Consumption -> Prop) (position : Nat)
    (report : Report before) : Prop where
  ordered : Ordered position report.trail
  survivor : report.accepted = true -> exists route, isRoute route ∧ Survives report.trail route

theorem certifies_attempt (automaton : Automaton) (input : List UInt8) :
    (forall id position visited,
      Certifies (Route automaton id position (input.drop position)) position
        (attempt automaton input id position visited)) ∧
    forall targets position visited,
      Certifies (fun route => exists target, target ∈ targets ∧
          Route automaton target position (input.drop position) route) position
        (attemptAll automaton input targets position visited) := by
  refine attempt_induction automaton input
    (fun id position _ report =>
      Certifies (Route automaton id position (input.drop position)) position report)
    (fun targets position _ report =>
      Certifies (fun route => exists target, target ∈ targets ∧
        Route automaton target position (input.drop position) route) position report)
    ?fail ?accept ?fork ?consume ?none ?first ?followed
  case fail => exact fun _ _ _ _ => ⟨.nil, fun accepts => by contradiction⟩
  case accept =>
    intro id position visited state found ended terminal
    refine ⟨.nil, fun _ => ⟨[], ?_, fun _ impossible => absurd impossible List.not_mem_nil⟩⟩
    rw [List.drop_eq_nil_of_le (List.getElem?_eq_none_iff.1 ended)]
    exact .arrive ⟨id, state, .refl id, found, terminal⟩
  case fork =>
    intro id position visited state report found _ forked
    refine ⟨forked.ordered, fun accepts => ?_⟩
    rcases forked.survivor accepts with ⟨route, ⟨target, member, leads⟩, survives⟩
    exact ⟨route, leads.epsilon found member, survives⟩
  case consume =>
    intro id position visited state byte target behind _ found available reads certifies
    refine ⟨certifies.ordered.cons rfl, fun accepts => ?_⟩
    rcases certifies.survivor accepts with ⟨route, leads, survives⟩
    refine ⟨⟨id, byte, target, position⟩ :: route, ?_, survives.cons certifies.ordered⟩
    rw [drop_eq_cons available]
    exact .read (.refl id) found reads leads
  case none => exact fun _ _ => ⟨.nil, fun accepts => by contradiction⟩
  case first =>
    intro target later position visited report _ certifies
    refine ⟨certifies.ordered, fun accepts => ?_⟩
    rcases certifies.survivor accepts with ⟨route, leads, survives⟩
    exact ⟨route, ⟨target, List.mem_cons_self, leads⟩, survives⟩
  case followed =>
    intro target later position visited report rest _ certifies certifiesRest
    refine ⟨certifies.ordered.append certifiesRest.ordered, fun accepts => ?_⟩
    rcases certifiesRest.survivor accepts with ⟨route, ⟨other, member, leads⟩, survives⟩
    exact ⟨route, ⟨other, List.mem_cons_of_mem target member, leads⟩, survives.append _⟩

/-! ## A failure has tried everything -/

/-- All that can be read from here is in the trail. -/
def Exhausted (automaton : Automaton) (trail : List Consumption) (id : StateId) (position : Nat)
    (remaining : List UInt8) : Prop :=
  forall line, Possible automaton id position remaining line -> line ∈ trail

/-- A state that was visited in vain: the moves without reading lead to states
that were visited too, and everything behind the next byte was tried. -/
structure Explored (automaton : Automaton) (input : List UInt8) (trail : List Consumption)
    (visited : Finset StateId) (position : Nat) (id : StateId) : Prop where
  forks : forall state target, automaton.state? id = some state -> target ∈ state.epsilons ->
    target ∈ visited
  reads : forall state byte target, automaton.state? id = some state ->
    input[position]? = some byte -> state.next? byte = some target ->
      ⟨id, byte, target, position⟩ ∈ trail ∧
        Exhausted automaton trail target (position + 1) (input.drop (position + 1))

namespace Explored

variable {trail longer : List Consumption} {visited more : Finset StateId} {position : Nat}
  {id target : StateId} {state : State} {byte : UInt8}

theorem mono (explored : Explored automaton input trail visited position id) (kept : trail ⊆ longer)
    (grown : visited ⊆ more) : Explored automaton input longer more position id where
  forks := fun state target found member => grown (explored.forks state target found member)
  reads := by
    intro state byte target found available reads
    rcases explored.reads state byte target found available reads with ⟨logged, exhausted⟩
    exact ⟨kept logged, fun line possible => kept (exhausted line possible)⟩

theorem ofFork (found : automaton.state? id = some state)
    (stuck : forall byte, input[position]? = some byte -> state.next? byte = none)
    (forks : forall target, target ∈ state.epsilons -> target ∈ visited) :
    Explored automaton input trail visited position id where
  forks := by
    intro again target foundAgain member
    rw [found] at foundAgain
    cases foundAgain
    exact forks target member
  reads := by
    intro again byte target foundAgain available reads
    rw [found] at foundAgain
    cases foundAgain
    rw [stuck byte available] at reads
    contradiction

/-- A state that was left by a byte has nothing else to explore. -/
theorem ofRead (found : automaton.state? id = some state) (available : input[position]? = some byte)
    (reads : state.next? byte = some target) (alone : state.epsilons = [])
    (logged : ⟨id, byte, target, position⟩ ∈ trail)
    (exhausted : Exhausted automaton trail target (position + 1) (input.drop (position + 1))) :
    Explored automaton input trail visited position id where
  forks := by
    intro again reached foundAgain member
    rw [found] at foundAgain
    cases foundAgain
    rw [alone] at member
    contradiction
  reads := by
    intro again read reached foundAgain availableAgain readsAgain
    rw [found] at foundAgain
    cases foundAgain
    rw [available] at availableAgain
    cases availableAgain
    rw [reads] at readsAgain
    cases readsAgain
    exact ⟨logged, exhausted⟩

end Explored

/-- A set of states that were all explored is not left by any path but through
a byte. -/
theorem exhausted_of_explored {trail : List Consumption} {visited : Finset StateId} {position : Nat}
    (explored : forall other, other ∈ visited ->
      Explored automaton input trail visited position other)
    {id : StateId} (member : id ∈ visited) :
    Exhausted automaton trail id position (input.drop position) := by
  intro line possible
  generalize same : input.drop position = remaining at possible
  induction possible with
  | here found reads =>
      exact ((explored _ member).reads _ _ _ found (getElem?_of_drop same) reads).1
  | epsilon found epsilon _ ih =>
      exact ih explored ((explored _ member).forks _ _ found epsilon) same
  | edge found reads behind _ =>
      have available := getElem?_of_drop same
      rw [drop_eq_cons available] at same
      cases same
      exact ((explored _ member).reads _ _ _ found available reads).2 _ behind

/-- What a failure leaves behind, apart from what had been visited before. -/
structure Exhausts (automaton : Automaton) (input : List UInt8) (targets : List StateId)
    (position : Nat) {before : Finset StateId} (report : Report before) : Prop where
  visits : forall target, target ∈ targets -> target ∈ report.visited
  explores : forall id, id ∈ report.visited -> id ∉ before ->
    Explored automaton input report.trail report.visited position id

theorem exhausts_attempt (closed : automaton.Closed) (unmixed : automaton.Unmixed)
    (input : List UInt8) :
    (forall id position visited, id < automaton.size ->
      (attempt automaton input id position visited).accepted = false ->
        Exhausts automaton input [id] position (attempt automaton input id position visited)) ∧
    forall targets position visited, (forall target, target ∈ targets -> target < automaton.size) ->
      (attemptAll automaton input targets position visited).accepted = false ->
        Exhausts automaton input targets position
          (attemptAll automaton input targets position visited) := by
  refine attempt_induction automaton input
    (fun id position _ report => id < automaton.size -> report.accepted = false ->
      Exhausts automaton input [id] position report)
    (fun targets position _ report =>
      (forall target, target ∈ targets -> target < automaton.size) -> report.accepted = false ->
        Exhausts automaton input targets position report)
    ?fail ?accept ?fork ?consume ?none ?first ?followed
  case fail =>
    intro id position visited reason inside _
    refine ⟨fun other member => ?_, fun other known unknown => absurd known unknown⟩
    rw [List.mem_singleton.1 member]
    refine reason.resolve_right fun missing => ?_
    exact absurd inside (Nat.not_lt.2 (Array.getElem?_eq_none_iff.1 missing))
  case accept => exact fun _ _ _ _ _ _ _ _ fails => by contradiction
  case fork =>
    intro id position visited state report found stuck forked _ fails
    have exhausts := forked (closed state (Array.mem_of_getElem? found)).2 fails
    refine ⟨fun other member => ?_, fun other known unknown => ?_⟩
    · rw [List.mem_singleton.1 member]
      exact report.grows (Finset.mem_insert_self id visited)
    · by_cases same : other = id
      · rw [same]
        exact .ofFork found stuck exhausts.visits
      · exact exhausts.explores other known fun member =>
          (Finset.mem_insert.1 member).elim same unknown
  case consume =>
    intro id position visited state byte target behind _ found available reads attempted _ fails
    have exhausts := attempted ((closed state (Array.mem_of_getElem? found)).1 _
      (State.mem_edges_of_next? reads)) fails
    refine ⟨fun other member => ?_, fun other known unknown => ?_⟩
    · rw [List.mem_singleton.1 member]
      exact Finset.mem_insert_self id visited
    · have same : other = id := (Finset.mem_insert.1 known).resolve_right unknown
      have behindExhausted := exhausted_of_explored
        (fun inner member => exhausts.explores inner member (Finset.notMem_empty inner))
        (exhausts.visits target (List.mem_singleton.2 rfl))
      subst same
      exact .ofRead found available reads (unmixed _ _ _ _ found reads) List.mem_cons_self
        fun line possible => List.mem_cons_of_mem _ (behindExhausted line possible)
  case none =>
    exact fun _ _ _ _ => ⟨fun _ impossible => absurd impossible List.not_mem_nil,
      fun _ known unknown => absurd known unknown⟩
  case first =>
    intro target later position visited report accepts _ _ fails
    rw [accepts] at fails
    contradiction
  case followed =>
    intro target later position visited report rest fails attempted attemptedRest inside failsRest
    have first := attempted (inside target List.mem_cons_self) fails
    have second := attemptedRest (fun other member => inside other (List.mem_cons_of_mem target member))
      failsRest
    refine ⟨fun other member => ?_, fun other known unknown => ?_⟩
    · rcases List.mem_cons.1 member with now | among
      · exact rest.grows (first.visits other (List.mem_singleton.2 now))
      · exact second.visits other among
    · by_cases early : other ∈ report.visited
      · exact (first.explores other early unknown).mono (List.subset_append_left _ _) rest.grows
      · exact (second.explores other known early).mono (List.subset_append_right _ _)
          (Finset.Subset.refl _)

/-- The verdict and the trail of a search are those of the recursion. -/
theorem traced_start_eq (closed : automaton.Closed) {id : StateId} (inside : id < automaton.size)
    (input : List UInt8) :
    (start automaton id input).traced =
      ((attempt automaton input id 0 ∅).verdict, (attempt automaton input id 0 ∅).trail) :=
  ((attempted closed input).1 id 0 ∅ inside _ [] (.empty _)).traced_eq

/-- A search that fails leaves nothing unread that some path leads to. -/
theorem exhausted_start (closed : automaton.Closed) (unmixed : automaton.Unmixed) {id : StateId}
    (inside : id < automaton.size) (fails : (attempt automaton input id 0 ∅).accepted = false) :
    Exhausted automaton (attempt automaton input id 0 ∅).trail id 0 input := by
  have exhausts := (exhausts_attempt closed unmixed input).1 id 0 ∅ inside fails
  have explored := fun other member => exhausts.explores other member (Finset.notMem_empty other)
  exact exhausted_of_explored explored (exhausts.visits id (List.mem_singleton.2 rfl))

end Search

namespace Recognizer

open Search (Consumption Route lastAt? start)

/-- In every assembled automaton, whatever state a search begins at, its trail
tells of readings that follow a path from there, position by position and in
the order of a depth-first search.  If the answer is no, then the trail holds
every reading that there is.  If it is yes, then the last readings of all
positions make up an accepting path. -/
theorem trail_certifies_answer {tokens : List Token} {recognizer : Recognizer}
    (assembled : assemble tokens = .ok recognizer) {id : StateId}
    (inside : id < recognizer.automaton.size) (input : List UInt8) :
    exists (answer : Bool) (trail : List Consumption),
      recognizer.acceptsFrom id input = .ok answer ∧
      (start recognizer.automaton id input).trail = trail ∧
      (forall line, line ∈ trail ->
        line.position < input.length ∧ input[line.position]? = some line.byte ∧
          (exists state, recognizer.automaton.state? line.source = some state ∧
            state.next? line.byte = some line.target) ∧
          recognizer.automaton.Path id (input.take line.position) line.source) ∧
      (forall line, trail.head? = some line -> line.position = 0) ∧
      (trail.IsChain fun line next => next.position <= line.position + 1) ∧
      (answer = false -> forall line : Consumption,
        input[line.position]? = some line.byte ->
        (exists state, recognizer.automaton.state? line.source = some state ∧
          state.next? line.byte = some line.target) ->
        recognizer.automaton.Path id (input.take line.position) line.source -> line ∈ trail) ∧
      (answer = true -> exists route,
        (List.range input.length).map (lastAt? trail) = route.map some ∧
          Route recognizer.automaton id 0 input route) := by
  have tidy := tidy_of_assemble assembled
  have traced := Search.traced_start_eq tidy.closed inside input
  have possible := (Search.possible_of_mem_trail recognizer.automaton input).1 id 0 ∅
  have certifies := (Search.certifies_attempt recognizer.automaton input).1 id 0 ∅
  have exhausted := @Search.exhausted_start _ input tidy.closed tidy.unmixed _ inside
  rw [Search.traced_eq] at traced
  rcases Prod.mk.inj traced with ⟨sameVerdict, sameTrail⟩
  generalize Search.attempt recognizer.automaton input id 0 ∅ = report at *
  refine ⟨report.accepted, report.trail, ?_, sameTrail, ?_, certifies.ordered.begins,
    certifies.ordered.onward, ?_, ?_⟩
  · rw [acceptsFrom, sameVerdict, Search.Report.verdict]
    cases report.accepted <;> rfl
  · intro line member
    have told := Search.Possible.iff_path_take.1 (possible line member)
    exact ⟨(List.getElem?_eq_some_iff.1 told.1).1, told⟩
  · intro fails line read reads path
    exact exhausted fails line (Search.Possible.iff_path_take.2 ⟨read, reads, path⟩)
  · intro accepts
    rcases certifies.survivor accepts with ⟨route, leads, survives⟩
    change Route recognizer.automaton id 0 input route at leads
    refine ⟨route, ?_, leads⟩
    rw [List.range_eq_range', ← leads.map_position, List.map_map]
    exact List.map_congr_left survives

/-- The first choice reads the first byte in vain, and the second one reads it
again. -/
theorem trail_certifies_answer_abandoned_choice :
    exists recognizer : Recognizer,
      assemble [.literal 0x61, .literal 0x61, .literal 0x62, .operator .concat,
        .operator .alternate, .literal 0x63, .operator .concat] = .ok recognizer ∧
      recognizer.root.entry < recognizer.automaton.size ∧
      (start recognizer.automaton recognizer.root.entry [0x61, 0x62, 0x63]).trail =
        [⟨0, 0x61, 1, 0⟩, ⟨2, 0x61, 3, 0⟩, ⟨4, 0x62, 5, 1⟩, ⟨8, 0x63, 9, 2⟩] ∧
      recognizer.acceptsFrom recognizer.root.entry [0x61, 0x62, 0x63] = .ok true ∧
      Route recognizer.automaton recognizer.root.entry 0 [0x61, 0x62, 0x63]
        [⟨2, 0x61, 3, 0⟩, ⟨4, 0x62, 5, 1⟩, ⟨8, 0x63, 9, 2⟩] := by
  have assembled : exists recognizer : Recognizer,
      assemble [.literal 0x61, .literal 0x61, .literal 0x62, .operator .concat,
        .operator .alternate, .literal 0x63, .operator .concat] = .ok recognizer ∧
      recognizer.root.entry < recognizer.automaton.size ∧
      (start recognizer.automaton recognizer.root.entry [0x61, 0x62, 0x63]).trail =
        [⟨0, 0x61, 1, 0⟩, ⟨2, 0x61, 3, 0⟩, ⟨4, 0x62, 5, 1⟩, ⟨8, 0x63, 9, 2⟩] ∧
      recognizer.acceptsFrom recognizer.root.entry [0x61, 0x62, 0x63] = .ok true :=
    ⟨_, rfl, by decide, by decide +kernel, by decide +kernel⟩
  rcases assembled with ⟨recognizer, assembled, inside, trail, accepts⟩
  rcases trail_certifies_answer assembled inside [0x61, 0x62, 0x63] with
    ⟨answer, own, answers, same, _, _, _, _, survives⟩
  rw [accepts] at answers
  cases answers
  rcases survives rfl with ⟨route, lasts, leads⟩
  rw [← same, trail] at lasts
  have only : [⟨2, 0x61, 3, 0⟩, ⟨4, 0x62, 5, 1⟩, ⟨8, 0x63, 9, 2⟩] = route :=
    (Option.some_injective Consumption).list_map lasts
  exact ⟨recognizer, assembled, inside, trail, accepts, only ▸ leads⟩

end Recognizer
end BytePattern
