import Mathlib.Logic.Function.Iterate
import BytePattern.Proofs.Search.Recursion

namespace BytePattern

/-!
# Marks as a stack of sets

Whoever uses marks may think of them as a stack of sets.  Marking adds to the set
on top, opening a level puts an empty set on top, and closing one takes it away.
There is one stamp for each state all the same, which an inner level overwrites, and
a stamp tells the position at which it was made, but not which of all the levels that
were ever open at that position it was made in.

Two things make up for this.  Stamps never lie ahead of the innermost level, so a
position that is used again finds none of its own.  And what the innermost level has
overwritten is in its log, so closing the level brings back not only the same set
but the very same marks.

A history of calls lists the latest call first, as a log does.  What is shown about
marks holds of every history that marks at the depth of the innermost level and
leaves the level at the bottom open.
-/

namespace Search
namespace Marks

variable {capacity : Nat} {marks : Marks capacity} {id : Fin capacity}

/-- How many levels are open, the innermost one included. -/
def levelCount (marks : Marks capacity) : Nat :=
  marks.outer.length + 1

/-! ## Calls -/

/-- Marks a state at a position, and tells whether it was not marked there yet. -/
def mark (marks : Marks capacity) (id : Fin capacity) (position : Nat) : Bool × Marks capacity :=
  if marks.contains id position then (false, marks) else (true, marks.insert id position)

inductive Call (capacity : Nat) where
  | mark (id : Fin capacity) (position : Nat)
  | openLevel
  | closeLevel
deriving DecidableEq, Repr

def perform (marks : Marks capacity) : Call capacity -> Marks capacity
  | .mark id position => (marks.mark id position).2
  | .openLevel => marks.openLevel
  | .closeLevel => marks.closeLevel

/-- What becomes of marks by a history of calls. -/
def after (marks : Marks capacity) (history : List (Call capacity)) : Marks capacity :=
  history.foldr (fun call earlier => earlier.perform call) marks

theorem after_append (marks : Marks capacity) (later earlier : List (Call capacity)) :
    marks.after (later ++ earlier) = (marks.after earlier).after later := by
  rw [after, after, after, List.foldr_append]

/-- A history that begins at one depth and ends at another.  Every state is marked at
the depth of the innermost level, and the level at which the history begins is not
closed.  At the bottom the depth is zero. -/
inductive Disciplined (ground : Nat) : List (Call capacity) -> Nat -> Prop where
  | nil : Disciplined ground [] ground
  | mark {earlier : List (Call capacity)} {depth : Nat} (id : Fin capacity)
      (kept : Disciplined ground earlier depth) : Disciplined ground (.mark id depth :: earlier) depth
  | openLevel {earlier : List (Call capacity)} {depth : Nat}
      (kept : Disciplined ground earlier depth) :
      Disciplined ground (.openLevel :: earlier) (depth + 1)
  | closeLevel {earlier : List (Call capacity)} {depth : Nat} (inner : ground <= depth)
      (kept : Disciplined ground earlier (depth + 1)) :
      Disciplined ground (.closeLevel :: earlier) depth

theorem Disciplined.le {ground depth : Nat} {history : List (Call capacity)}
    (disciplined : Disciplined ground history depth) : ground <= depth := by
  induction disciplined with
  | nil => exact Nat.le_refl ground
  | mark _ _ ih => exact ih
  | openLevel _ ih => exact Nat.le_succ_of_le ih
  | closeLevel inner _ _ => exact inner

/-! ## Sets for marks -/

/-- What a call does to a stack of sets.  Positions mean nothing to sets. -/
def Call.onSets : Call capacity -> List (Finset StateId) -> List (Finset StateId)
  | .mark id _, sets => sets.modifyHead (Insert.insert id.val)
  | .openLevel, sets => ∅ :: sets
  | .closeLevel, sets => sets.tail

/-- The stack of sets that a history leads to, from a single empty set. -/
def setsAfter (history : List (Call capacity)) : List (Finset StateId) :=
  history.foldr Call.onSets [∅]

theorem setsAfter_cons (call : Call capacity) (earlier : List (Call capacity)) :
    setsAfter (call :: earlier) = call.onSets (setsAfter earlier) := rfl

/-- The marks of the innermost level record the set on top, and closing that level
brings back marks that represent the rest. -/
inductive Represents : Marks capacity -> List (Finset StateId) -> Prop where
  | bottom {marks : Marks capacity} {set : Finset StateId} (alone : marks.outer = [])
      (records : marks.Records 0 set) : Represents marks [set]
  | level {marks : Marks capacity} {set : Finset StateId} {around : List (Finset StateId)}
      (surrounded : marks.outer ≠ []) (records : marks.Records around.length set)
      (closed : Represents marks.closeLevel around) : Represents marks (set :: around)

namespace Represents

variable {set : Finset StateId} {around sets : List (Finset StateId)}

theorem empty (capacity : Nat) : (empty capacity).Represents [∅] :=
  .bottom rfl (.empty capacity)

theorem records (represents : marks.Represents (set :: around)) :
    marks.Records around.length set := by
  cases represents with
  | bottom _ records => exact records
  | level _ records _ => exact records

theorem levelCount_eq (represents : marks.Represents sets) : marks.levelCount = sets.length := by
  induction represents with
  | bottom alone _ => rw [levelCount, alone]; rfl
  | @level marks set around surrounded records closed ih =>
      have nonempty := List.length_pos_of_ne_nil surrounded
      have closing : marks.closeLevel.outer = marks.outer.tail := rfl
      rw [levelCount, closing, List.length_tail] at ih
      rw [levelCount, List.length_cons]
      omega

theorem insert (represents : marks.Represents (set :: around)) (id : Fin capacity) :
    (marks.insert id around.length).Represents (Insert.insert id.val set :: around) := by
  cases represents with
  | bottom alone records => exact .bottom alone (records.insert id)
  | level surrounded records closed =>
      refine .level surrounded (records.insert id) ?_
      rw [closeLevel_insert]
      exact closed

/-- The reply of marks is the reply of the set on top. -/
theorem mark_fst (represents : marks.Represents (set :: around)) (id : Fin capacity) :
    (marks.mark id around.length).1 = true <-> id.val ∉ set := by
  have recorded := represents.records.present id
  cases marked : marks.contains id around.length with
  | true => simp [mark, marked, recorded.1 marked]
  | false =>
      have unseen : id.val ∉ set := fun seen => Bool.eq_false_iff.1 marked (recorded.2 seen)
      simp [mark, marked, unseen]

theorem mark_snd (represents : marks.Represents (set :: around)) (id : Fin capacity) :
    (marks.mark id around.length).2.Represents (Insert.insert id.val set :: around) := by
  cases marked : marks.contains id around.length with
  | true =>
      rw [Finset.insert_eq_of_mem ((represents.records.present id).1 marked), mark, if_pos marked]
      exact represents
  | false =>
      rw [mark, if_neg (Bool.eq_false_iff.1 marked)]
      exact represents.insert id

theorem openLevel (represents : marks.Represents (set :: around)) :
    marks.openLevel.Represents (∅ :: set :: around) :=
  .level (List.cons_ne_nil _ _) represents.records.openLevel
    ((closeLevel_openLevel marks).symm ▸ represents)

theorem closeLevel (represents : marks.Represents (set :: around)) (inner : around ≠ []) :
    marks.closeLevel.Represents around := by
  cases represents with
  | bottom _ _ => contradiction
  | level _ _ closed => exact closed

end Represents

/-- Whatever is done to marks is done to the sets they represent, and there are as
many sets as there are levels. -/
theorem Disciplined.represents {history : List (Call capacity)} {depth : Nat}
    (disciplined : Disciplined 0 history depth) :
    exists set around, setsAfter history = set :: around ∧ around.length = depth ∧
      ((Marks.empty capacity).after history).Represents (set :: around) := by
  induction disciplined with
  | nil => exact ⟨∅, [], rfl, rfl, .empty capacity⟩
  | @mark earlier depth id _ ih =>
      rcases ih with ⟨set, around, sets, rfl, represents⟩
      refine ⟨Insert.insert id.val set, around, ?_, rfl, represents.mark_snd id⟩
      rw [setsAfter_cons, sets, Call.onSets, List.modifyHead_cons]
  | openLevel _ ih =>
      rcases ih with ⟨set, around, sets, rfl, represents⟩
      exact ⟨∅, set :: around, congrArg (List.cons ∅) sets, rfl, represents.openLevel⟩
  | @closeLevel earlier depth _ _ ih =>
      rcases ih with ⟨set, around, sets, length, represents⟩
      have inner := List.ne_nil_of_length_eq_add_one length
      have closed := represents.closeLevel inner
      rcases List.exists_cons_of_ne_nil inner with ⟨top, below, rfl⟩
      refine ⟨top, below, ?_, Nat.succ.inj length, closed⟩
      rw [setsAfter_cons, sets, Call.onSets, List.tail_cons]

/-- The depth counts the levels around the innermost one. -/
theorem Disciplined.levelCount_eq {history : List (Call capacity)} {depth : Nat}
    (disciplined : Disciplined 0 history depth) :
    ((Marks.empty capacity).after history).levelCount = depth + 1 := by
  rcases disciplined.represents with ⟨set, around, _, rfl, represents⟩
  exact represents.levelCount_eq

/-! ## What the sets remember -/

/-- The state was marked when the level of this depth was the innermost one, and that
level has been open ever since. -/
def MarkedSince (ground : Nat) (history : List (Call capacity)) (depth : Nat)
    (id : Fin capacity) : Prop :=
  exists later position earlier,
    history = later ++ .mark id position :: earlier ∧ Disciplined ground later depth

section MarkedSince

variable {ground depth : Nat} {earlier : List (Call capacity)} {other : Fin capacity}

theorem markedSince_mark_iff :
    MarkedSince ground (.mark other depth :: earlier) depth id <->
      (ground = depth ∧ other = id) ∨ MarkedSince ground earlier depth id := by
  constructor
  · rintro ⟨later, position, before, split, disciplined⟩
    rcases List.cons_eq_append_iff.1 split with ⟨rfl, same⟩ | ⟨rest, rfl, within⟩
    · cases disciplined
      cases same
      exact Or.inl ⟨rfl, rfl⟩
    · cases disciplined with
      | mark _ kept => exact Or.inr ⟨rest, position, before, within, kept⟩
  · rintro (⟨rfl, rfl⟩ | ⟨later, position, before, rfl, disciplined⟩)
    · exact ⟨[], ground, earlier, rfl, .nil⟩
    · exact ⟨.mark other depth :: later, position, before, rfl, .mark other disciplined⟩

theorem markedSince_openLevel_iff :
    MarkedSince ground (.openLevel :: earlier) (depth + 1) id <->
      MarkedSince ground earlier depth id := by
  constructor
  · rintro ⟨later, position, before, split, disciplined⟩
    rcases List.cons_eq_append_iff.1 split with ⟨rfl, same⟩ | ⟨rest, rfl, within⟩
    · cases same
    · cases disciplined with
      | openLevel kept => exact ⟨rest, position, before, within, kept⟩
  · rintro ⟨later, position, before, rfl, disciplined⟩
    exact ⟨.openLevel :: later, position, before, rfl, .openLevel disciplined⟩

theorem markedSince_closeLevel_iff (inner : ground <= depth) :
    MarkedSince ground (.closeLevel :: earlier) depth id <->
      MarkedSince ground earlier (depth + 1) id := by
  constructor
  · rintro ⟨later, position, before, split, disciplined⟩
    rcases List.cons_eq_append_iff.1 split with ⟨rfl, same⟩ | ⟨rest, rfl, within⟩
    · cases same
    · cases disciplined with
      | closeLevel _ kept => exact ⟨rest, position, before, within, kept⟩
  · rintro ⟨later, position, before, rfl, disciplined⟩
    exact ⟨.closeLevel :: later, position, before, rfl, .closeLevel inner disciplined⟩

/-- A level that is deeper than the innermost one is not open. -/
theorem not_markedSince_of_lt (deeper : depth < ground) (history : List (Call capacity)) :
    ¬ MarkedSince ground history depth id := by
  rintro ⟨_, _, _, _, disciplined⟩
  exact Nat.not_lt.2 disciplined.le deeper

end MarkedSince

/-- Each set of the stack holds what was marked in its own level, whatever was marked
around that level, or in levels inside it. -/
theorem Disciplined.mem_iff_markedSince {history : List (Call capacity)} {depth : Nat}
    (disciplined : Disciplined 0 history depth) {set : Finset StateId}
    {around : List (Finset StateId)} (among : set :: around <:+ setsAfter history) :
    id.val ∈ set <-> MarkedSince around.length history depth id := by
  induction disciplined generalizing set around with
  | nil =>
      rcases List.suffix_cons_iff.1 among with same | impossible
      · cases same
        refine iff_of_false (Finset.notMem_empty _) ?_
        rintro ⟨later, _, _, split, _⟩
        exact absurd split.symm (List.append_ne_nil_of_right_ne_nil later (List.cons_ne_nil _ _))
      · exact absurd (List.suffix_nil.1 impossible) (List.cons_ne_nil _ _)
  | @mark earlier depth other kept ih =>
      rcases kept.represents with ⟨top, below, sets, length, _⟩
      rw [setsAfter_cons, sets, Call.onSets, List.modifyHead_cons] at among
      rw [sets] at ih
      rw [markedSince_mark_iff]
      -- Only the set on top has changed, and the mark was made in its level.
      rcases List.suffix_cons_iff.1 among with same | deeper
      · cases same
        have before := ih (List.suffix_refl _)
        rw [Finset.mem_insert, before, ← Fin.ext_iff, @eq_comm _ id]
        exact or_congr_left (iff_and_self.2 fun _ => length)
      · have shorter : around.length ≠ depth := by
          have bounded := deeper.length_le
          rw [List.length_cons] at bounded
          omega
        rw [ih (deeper.trans (List.suffix_cons top below))]
        exact (or_iff_right fun both => shorter both.1).symm
  | @openLevel earlier depth kept ih =>
      rcases kept.represents with ⟨top, below, sets, length, _⟩
      rw [setsAfter_cons, Call.onSets] at among
      rw [markedSince_openLevel_iff]
      rcases List.suffix_cons_iff.1 among with same | deeper
      · rcases List.cons.inj same with ⟨rfl, rfl⟩
        rw [sets, List.length_cons, length]
        exact iff_of_false (Finset.notMem_empty _) (not_markedSince_of_lt (Nat.lt_succ_self depth) _)
      · exact ih deeper
  | @closeLevel earlier depth _ kept ih =>
      rcases kept.represents with ⟨top, below, sets, length, _⟩
      rw [setsAfter_cons, sets, Call.onSets, List.tail_cons] at among
      rw [sets] at ih
      have inner : around.length <= depth := by
        have bounded := among.length_le
        rw [List.length_cons] at bounded
        omega
      rw [markedSince_closeLevel_iff inner]
      exact ih (among.trans (List.suffix_cons top below))

/-- A state is told to be new unless it was marked since the innermost level was
opened. -/
theorem Disciplined.mark_fst_iff {history : List (Call capacity)} {depth : Nat}
    (disciplined : Disciplined 0 history depth) (id : Fin capacity) :
    (((Marks.empty capacity).after history).mark id depth).1 = true <->
      ¬ MarkedSince depth history depth id := by
  rcases disciplined.represents with ⟨set, around, sets, rfl, represents⟩
  have top : set :: around <:+ setsAfter history := by rw [sets]
  rw [represents.mark_fst, disciplined.mem_iff_markedSince top]

/-- A level begins with no state marked. -/
theorem Disciplined.contains_openLevel {history : List (Call capacity)} {depth : Nat}
    (disciplined : Disciplined 0 history depth) (id : Fin capacity) :
    ((Marks.empty capacity).after (.openLevel :: history)).contains id (depth + 1) = false := by
  rcases disciplined.represents with ⟨set, around, _, rfl, represents⟩
  exact represents.openLevel.records.contains_eq_false (Finset.notMem_empty _)

/-! ## What closing a level brings back -/

/-- Closing all levels from the innermost to the one at which a history began undoes
the history, and with it what was marked in that level before.  The log of each level
is used once, so it does not matter in which order levels overwrote each other. -/
theorem Disciplined.iterate_closeLevel {ground depth : Nat} {history : List (Call capacity)}
    (disciplined : Disciplined ground history depth) (marks : Marks capacity) :
    Marks.closeLevel^[depth - ground + 1] (marks.after history) = marks.closeLevel := by
  induction disciplined with
  | nil =>
      rw [Nat.sub_self]
      rfl
  | @mark earlier depth id _ ih =>
      -- The mark is in the innermost level, which is the first one to be closed.
      have forgotten : ((marks.after earlier).mark id depth).2.closeLevel =
          (marks.after earlier).closeLevel := by
        unfold Marks.mark
        split
        · rfl
        · exact closeLevel_insert _ _ _
      rw [Function.iterate_succ_apply] at ih ⊢
      exact (congrArg _ forgotten).trans ih
  | @openLevel earlier depth kept ih =>
      rw [Nat.sub_add_comm kept.le, Function.iterate_succ_apply]
      exact ih
  | @closeLevel earlier depth inner _ ih =>
      rw [Nat.sub_add_comm inner, Function.iterate_succ_apply] at ih
      exact ih

/-- Every level above the bottom was opened by a call, after which it stayed open. -/
theorem Disciplined.exists_openLevel {history : List (Call capacity)} {depth : Nat}
    (disciplined : Disciplined 0 history depth) {below : Nat} (inner : below < depth) :
    exists later earlier, history = later ++ .openLevel :: earlier ∧ Disciplined 0 earlier below ∧
      Disciplined (below + 1) later depth := by
  induction disciplined with
  | nil => contradiction
  | mark id _ ih =>
      rcases ih inner with ⟨later, earlier, rfl, kept, inside⟩
      exact ⟨_ :: later, earlier, rfl, kept, .mark id inside⟩
  | @openLevel before depth kept ih =>
      rcases Nat.lt_succ_iff_lt_or_eq.1 inner with deeper | same
      · rcases ih deeper with ⟨later, earlier, rfl, lower, inside⟩
        exact ⟨_ :: later, earlier, rfl, lower, .openLevel inside⟩
      · subst same
        exact ⟨[], before, rfl, kept, .nil⟩
  | closeLevel _ _ ih =>
      rcases ih (Nat.lt_succ_of_lt inner) with ⟨later, earlier, rfl, kept, inside⟩
      exact ⟨_ :: later, earlier, rfl, kept, .closeLevel inner inside⟩

/-- Closing a level brings back the marks from before the call that opened it. -/
theorem Disciplined.exists_after_closeLevel {history : List (Call capacity)} {below : Nat}
    (disciplined : Disciplined 0 history (below + 1)) (marks : Marks capacity) :
    exists later earlier, history = later ++ .openLevel :: earlier ∧ Disciplined 0 earlier below ∧
      Disciplined (below + 1) later (below + 1) ∧
      marks.after (.closeLevel :: history) = marks.after earlier := by
  rcases disciplined.exists_openLevel (Nat.lt_succ_self below) with ⟨later, earlier, rfl, kept, inside⟩
  refine ⟨later, earlier, rfl, kept, inside, ?_⟩
  have closed := inside.iterate_closeLevel (marks.after (.openLevel :: earlier))
  rw [Nat.sub_self, Function.iterate_one] at closed
  calc
    marks.after (.closeLevel :: (later ++ .openLevel :: earlier)) =
        (marks.after (later ++ .openLevel :: earlier)).closeLevel := rfl
    _ = ((marks.after (.openLevel :: earlier)).after later).closeLevel := by rw [after_append]
    _ = (marks.after (.openLevel :: earlier)).closeLevel := closed
    _ = marks.after earlier := closeLevel_openLevel _

end Marks
end Search
end BytePattern
