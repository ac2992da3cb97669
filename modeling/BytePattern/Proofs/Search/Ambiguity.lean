import Mathlib.Algebra.Order.BigOperators.Group.List
import BytePattern.Proofs.Automaton.Readers
import BytePattern.Proofs.Search.Trail

namespace BytePattern

/-!
# How often a position is read

A search that gives up may have read the same byte many times, because whatever
was marked behind a byte is forgotten as soon as that byte is given back.  The
marks bound the search nonetheless.  Within one level no state is entered twice,
so a byte is read there at most once by each state that can read it.  A new level
is only opened by a byte that is read at the position before.

The bound therefore multiplies along the input: each position contributes the
number of states that can read its byte, which is the number of its literals.
A pattern in which no byte is repeated is never ambiguous, however its parts are
nested and repeated.

An attempt may begin with some states visited already.  What it reads at its own
position is bounded by the states that it adds to them, and attempts in a row add
different ones.
-/

namespace Search

variable {automaton : Automaton} {input : List UInt8}

/-- How many lines of a trail tell of a position, whatever came of them. -/
def readingsAt (trail : List Consumption) (position : Nat) : Nat :=
  trail.countP fun line => line.position = position

theorem readingsAt_append (front back : List Consumption) (position : Nat) :
    readingsAt (front ++ back) position = readingsAt front position + readingsAt back position :=
  List.countP_append

theorem readingsAt_eq_zero {trail : List Consumption} {position : Nat}
    (apart : forall line, line ∈ trail -> line.position ≠ position) : readingsAt trail position = 0 :=
  List.countP_eq_zero.2 fun line member => by simpa using apart line member

/-- The number of ways in which states could be chosen to read a word. -/
def choices (automaton : Automaton) (word : List UInt8) : Nat :=
  (word.map fun byte => (automaton.readers byte).card).prod

theorem choices_cons (automaton : Automaton) (byte : UInt8) (word : List UInt8) :
    choices automaton (byte :: word) = (automaton.readers byte).card * choices automaton word := by
  rw [choices, List.map_cons, List.prod_cons, choices]

/-! ## States that an attempt adds -/

namespace Report

variable {before : Finset StateId}

/-- The states that were visited by the attempt itself and can read a byte. -/
def newReaders (report : Report before) (automaton : Automaton) (byte : UInt8) : Finset StateId :=
  (report.visited \ before) ∩ automaton.readers byte

theorem card_newReaders_le (report : Report before) (automaton : Automaton) (byte : UInt8) :
    (report.newReaders automaton byte).card <= (automaton.readers byte).card :=
  Finset.card_le_card Finset.inter_subset_right

/-- Whoever was handed fewer states sees at least as many that are new. -/
theorem card_newReaders_since {between : Finset StateId} (report : Report between)
    (grown : before ⊆ between) (automaton : Automaton) (byte : UInt8) :
    (report.newReaders automaton byte).card <= ((report.since grown).newReaders automaton byte).card :=
  Finset.card_le_card
    (Finset.inter_subset_inter_right (Finset.sdiff_subset_sdiff (Finset.Subset.refl _) grown))

/-- Two attempts in a row do not add the same state. -/
theorem card_newReaders_followedBy (first : Report before) (rest : Report first.visited)
    (automaton : Automaton) (byte : UInt8) :
    (first.newReaders automaton byte).card + (rest.newReaders automaton byte).card <=
      ((first.followedBy rest).newReaders automaton byte).card := by
  have apart : Disjoint (first.newReaders automaton byte) (rest.newReaders automaton byte) := by
    apply Finset.disjoint_left.2
    intro id early late
    have unseen := (Finset.mem_sdiff.1 (Finset.mem_inter.1 late).1).2
    exact unseen (Finset.mem_sdiff.1 (Finset.mem_inter.1 early).1).1
  rw [← Finset.card_union_of_disjoint apart]
  apply Finset.card_le_card
  apply Finset.union_subset
  · exact Finset.inter_subset_inter_right (Finset.sdiff_subset_sdiff rest.grows (Finset.Subset.refl _))
  · exact Finset.inter_subset_inter_right (Finset.sdiff_subset_sdiff (Finset.Subset.refl _) first.grows)

end Report

/-! ## The bound along the recursion -/

/-- At its own position an attempt reads a byte at most once by each state that it
adds, and every position behind that one multiplies the bound by the number of
states that can read its byte. -/
structure Bounded (automaton : Automaton) (input : List UInt8) (position : Nat)
    {before : Finset StateId} (report : Report before) : Prop where
  behind : forall line, line ∈ report.trail -> position <= line.position
  few : forall byte between after, input.drop position = byte :: (between ++ after) ->
    readingsAt report.trail (position + between.length) <=
      (report.newReaders automaton byte).card * choices automaton between

namespace Bounded

variable {position : Nat} {before : Finset StateId}

/-- Nothing was read. -/
theorem ofEmpty {report : Report before} (empty : report.trail = []) :
    Bounded automaton input position report where
  behind := by
    intro line member
    rw [empty] at member
    exact absurd member List.not_mem_nil
  few := by
    intro byte between after _
    rw [empty]
    exact Nat.zero_le _

/-- What is reported to someone else is what was read. -/
theorem since {between : Finset StateId} {report : Report between}
    (bounded : Bounded automaton input position report) (grown : before ⊆ between) :
    Bounded automaton input position (report.since grown) where
  behind := bounded.behind
  few := by
    intro byte word after split
    have added := report.card_newReaders_since grown automaton byte
    exact (bounded.few byte word after split).trans (Nat.mul_le_mul_right _ added)

theorem followedBy {first : Report before} {rest : Report first.visited}
    (one : Bounded automaton input position first) (two : Bounded automaton input position rest) :
    Bounded automaton input position (first.followedBy rest) where
  behind := by
    intro line member
    rcases List.mem_append.1 member with early | late
    · exact one.behind line early
    · exact two.behind line late
  few := by
    intro byte between after split
    have added := first.card_newReaders_followedBy rest automaton byte
    calc readingsAt (first.trail ++ rest.trail) (position + between.length)
        = readingsAt first.trail (position + between.length) +
            readingsAt rest.trail (position + between.length) := readingsAt_append _ _ _
      _ <= (first.newReaders automaton byte).card * choices automaton between +
            (rest.newReaders automaton byte).card * choices automaton between :=
          Nat.add_le_add (one.few byte between after split) (two.few byte between after split)
      _ = ((first.newReaders automaton byte).card + (rest.newReaders automaton byte).card) *
            choices automaton between := (Nat.add_mul _ _ _).symm
      _ <= ((first.followedBy rest).newReaders automaton byte).card * choices automaton between :=
          Nat.mul_le_mul_right _ added

/-- Reading a byte visits one state that was not visited, and opens a level in
which every state may be visited once. -/
theorem consume {id target : StateId} {state : State} {byte : UInt8} {behind : Report ∅}
    (unseen : id ∉ before) (found : automaton.state? id = some state)
    (available : input[position]? = some byte) (reads : state.next? byte = some target)
    (bounded : Bounded automaton input (position + 1) behind) :
    Bounded automaton input position (⟨behind.accepted, ⟨id, byte, target, position⟩ :: behind.trail,
      insert id before, Finset.subset_insert id before⟩ : Report before) where
  behind := by
    intro line member
    rcases List.mem_cons.1 member with now | later
    · rw [now]
    · exact Nat.le_of_succ_le (bounded.behind line later)
  few := by
    intro own between after split
    rw [drop_eq_cons available] at split
    rcases List.cons.inj split with ⟨same, later⟩
    subst same
    have single : (insert id before \ before) ∩ automaton.readers byte = {id} := by
      rw [Finset.insert_sdiff_cancel unseen]
      exact Finset.inter_eq_left.2 (Finset.singleton_subset_iff.2 (Automaton.mem_readers found reads))
    rw [Report.newReaders, single, Finset.card_singleton, Nat.one_mul]
    cases between with
    | nil =>
        have onward : readingsAt behind.trail position = 0 :=
          readingsAt_eq_zero fun line member => Nat.ne_of_gt (bounded.behind line member)
        rw [List.length_nil, Nat.add_zero, readingsAt, List.countP_cons_of_pos (by simp)]
        change readingsAt behind.trail position + 1 <= _
        rw [onward]
        exact Nat.le_refl _
    | cons next between =>
        have place : position + (next :: between).length = position + 1 + between.length := by
          rw [List.length_cons]
          omega
        rw [place, readingsAt, List.countP_cons_of_neg (by simp; omega), choices_cons]
        exact (bounded.few next between after later).trans
          (Nat.mul_le_mul_right _ (behind.card_newReaders_le automaton next))

end Bounded

/-- Every attempt is bounded, by induction on the recursion. -/
theorem bounded_attempt (automaton : Automaton) (input : List UInt8) :
    (forall id position visited,
      Bounded automaton input position (attempt automaton input id position visited)) ∧
    forall targets position visited,
      Bounded automaton input position (attemptAll automaton input targets position visited) := by
  refine attempt_induction automaton input
    (fun _ position _ report => Bounded automaton input position report)
    (fun _ position _ report => Bounded automaton input position report)
    ?fail ?accept ?fork ?consume ?none ?first ?followed
  case fail => exact fun _ _ _ _ => .ofEmpty rfl
  case accept => exact fun _ _ _ _ _ _ _ => .ofEmpty rfl
  case fork => exact fun id _ visited _ _ _ _ forked => forked.since (Finset.subset_insert id visited)
  case consume =>
    exact fun _ _ _ _ _ _ _ unseen found available reads bounded =>
      .consume unseen found available reads bounded
  case none => exact fun _ _ => .ofEmpty rfl
  case first => exact fun _ _ _ _ _ _ bounded => bounded
  case followed => exact fun _ _ _ _ _ _ _ one two => one.followedBy two

/-- In a whole attempt, a position is read at most as often as there are ways to
choose states that read the input up to it. -/
theorem readingsAt_attempt_le (automaton : Automaton) (input : List UInt8) (id : StateId)
    (place : Nat) :
    readingsAt (attempt automaton input id 0 ∅).trail place <=
      choices automaton (input.take (place + 1)) := by
  by_cases within : place < input.length
  · cases input with
    | nil => exact absurd within (Nat.not_lt_zero _)
    | cons byte rest =>
        have bounded := (bounded_attempt automaton (byte :: rest)).1 id 0 ∅
        have split : (byte :: rest).drop 0 = byte :: (rest.take place ++ rest.drop place) := by
          rw [List.drop_zero, List.take_append_drop]
        have length : 0 + (rest.take place).length = place := by
          rw [Nat.zero_add, List.length_take]
          exact Nat.min_eq_left (Nat.le_of_lt_succ within)
        have few := bounded.few byte _ _ split
        rw [length] at few
        rw [List.take_succ_cons, choices_cons]
        exact few.trans (Nat.mul_le_mul_right _ (Report.card_newReaders_le _ automaton byte))
  · have none : readingsAt (attempt automaton input id 0 ∅).trail place = 0 := by
      apply readingsAt_eq_zero
      intro line member
      have possible := (possible_of_mem_trail automaton input).1 id 0 ∅ line member
      have inside := (List.getElem?_eq_some_iff.1 (Possible.iff_path_take.1 possible).1).1
      exact Nat.ne_of_lt (Nat.lt_of_lt_of_le inside (Nat.not_lt.1 within))
    rw [none]
    exact Nat.zero_le _

end Search

namespace Recognizer

open Search (choices readingsAt start)

/-- The states that can read a byte were each made by a literal. -/
theorem choices_of_assemble {tokens : List Token} {recognizer : Recognizer}
    (assembled : assemble tokens = .ok recognizer) (word : List UInt8) :
    choices recognizer.automaton word =
      (word.map fun byte => tokens.count (.literal byte)).prod := by
  unfold choices
  congr 2
  funext byte
  exact card_readers_of_assemble assembled byte

/-- In every assembled automaton, whatever state a search begins at, it reads a
position at most as often as the literals of the bytes up to there multiply to.
If no byte has more than one literal, then no position is read twice. -/
theorem readings_bounded_by_literals {tokens : List Token} {recognizer : Recognizer}
    (assembled : assemble tokens = .ok recognizer) {id : StateId}
    (inside : id < recognizer.automaton.size) (input : List UInt8) :
    (forall place, readingsAt (start recognizer.automaton id input).trail place <=
        ((input.take (place + 1)).map fun byte => tokens.count (.literal byte)).prod) ∧
      ((forall byte, tokens.count (.literal byte) <= 1) -> forall place,
        readingsAt (start recognizer.automaton id input).trail place <= 1) := by
  have bound : forall place, readingsAt (start recognizer.automaton id input).trail place <=
      ((input.take (place + 1)).map fun byte => tokens.count (.literal byte)).prod := by
    intro place
    have traced := Search.traced_start_eq (tidy_of_assemble assembled).closed inside input
    rw [Search.traced_eq] at traced
    rw [(Prod.mk.inj traced).2, ← choices_of_assemble assembled]
    exact Search.readingsAt_attempt_le recognizer.automaton input id place
  refine ⟨bound, ?_⟩
  intro unrepeated place
  have each : forall count, count ∈ ((input.take (place + 1)).map fun byte =>
      tokens.count (.literal byte)) -> count <= 1 := by
    intro count listed
    rcases List.mem_map.1 listed with ⟨byte, _, same⟩
    exact same ▸ unrepeated byte
  have once := List.prod_le_pow_card _ 1 each
  rw [one_pow] at once
  exact (bound place).trans once

/-- Two literals of one byte under a repetition use the bound up: the second
position is read four times before the search gives up.  Under two repetitions,
a single literal is still read once at each position. -/
theorem readings_bounded_by_literals_used_up :
    (exists recognizer, assemble [.literal 0x61, .literal 0x61, .operator .alternate,
        .operator .star] = .ok recognizer ∧
      recognizer.root.entry < recognizer.automaton.size ∧
      readingsAt (start recognizer.automaton recognizer.root.entry [0x61, 0x61, 0x62]).trail 1 = 4 ∧
      readingsAt (start recognizer.automaton recognizer.root.entry [0x61, 0x61, 0x62]).trail 1 <= 2 * 2) ∧
    exists recognizer, assemble [.literal 0x61, .operator .star, .operator .star, .literal 0x62,
        .operator .concat] = .ok recognizer ∧
      recognizer.root.entry < recognizer.automaton.size ∧
      (forall byte, [Token.literal 0x61, .operator .star, .operator .star, .literal 0x62,
        .operator .concat].count (.literal byte) <= 1) ∧
      forall place, readingsAt
        (start recognizer.automaton recognizer.root.entry [0x61, 0x61, 0x63]).trail place <= 1 := by
  constructor
  · have assembled : exists recognizer, assemble [.literal 0x61, .literal 0x61, .operator .alternate,
          .operator .star] = .ok recognizer ∧
        recognizer.root.entry < recognizer.automaton.size ∧
        readingsAt (start recognizer.automaton recognizer.root.entry [0x61, 0x61, 0x62]).trail 1 = 4 :=
      ⟨_, rfl, by decide, by decide +kernel⟩
    rcases assembled with ⟨recognizer, assembled, inside, four⟩
    have bounded := readings_bounded_by_literals assembled inside [0x61, 0x61, 0x62]
    exact ⟨recognizer, assembled, inside, four, bounded.1 1⟩
  · have assembled : exists recognizer, assemble [.literal 0x61, .operator .star, .operator .star,
          .literal 0x62, .operator .concat] = .ok recognizer ∧
        recognizer.root.entry < recognizer.automaton.size := ⟨_, rfl, by decide⟩
    rcases assembled with ⟨recognizer, assembled, inside⟩
    have unrepeated : forall byte, [Token.literal 0x61, .operator .star, .operator .star,
        .literal 0x62, .operator .concat].count (.literal byte) <= 1 := by
      intro byte
      by_cases first : byte = 0x61
      · subst first
        decide
      · by_cases second : byte = 0x62
        · subst second
          decide
        · simp [Ne.symm first, Ne.symm second]
    have bounded := readings_bounded_by_literals assembled inside [0x61, 0x61, 0x63]
    exact ⟨recognizer, assembled, inside, unrepeated, bounded.2 unrepeated⟩

end Recognizer
end BytePattern
