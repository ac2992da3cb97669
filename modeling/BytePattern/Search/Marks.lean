namespace BytePattern
namespace Search

/-!
# Marks on states

A search enters a state at most once at each position of the input.  Which
states it has entered is recorded by a stamp on each state: the position at
which it was entered last.

One stamp for each state has to serve all positions on the current path.  Every
such position therefore owns a level with a log of the stamps it has replaced.
A deeper level may overwrite the stamps of the levels around it, since closing
it puts back what its log holds, the latest entry first.  The levels thus behave
like a stack of separate sets, although only one array is ever kept.
-/

/-- A state, and the stamp it had before. -/
abbrev Replaced (capacity : Nat) : Type :=
  Fin capacity × Option Nat

structure Marks (capacity : Nat) where
  stamp : Vector (Option Nat) capacity
  /-- What the innermost level has replaced, the latest first. -/
  log : List (Replaced capacity)
  /-- The logs of the levels around it, from the inside out. -/
  outer : List (List (Replaced capacity))

namespace Marks

variable {capacity : Nat}

/-- One level, with nothing marked in it. -/
def empty (capacity : Nat) : Marks capacity :=
  { stamp := Vector.replicate capacity none, log := [], outer := [] }

/-- Whether a state is marked at a position. -/
def contains (marks : Marks capacity) (id : Fin capacity) (position : Nat) : Bool :=
  marks.stamp[id] == some position

/-- Marks a state at a position, in the innermost level. -/
def insert (marks : Marks capacity) (id : Fin capacity) (position : Nat) : Marks capacity :=
  let replaced := marks.stamp[id]
  { marks with
    stamp := marks.stamp.set id (some position)
    log := (id, replaced) :: marks.log }

/-- Begins a level for the next position. -/
def openLevel (marks : Marks capacity) : Marks capacity :=
  { marks with log := [], outer := marks.log :: marks.outer }

/-- Puts back the stamps that a log holds. -/
def restore (stamp : Vector (Option Nat) capacity) (log : List (Replaced capacity)) :
    Vector (Option Nat) capacity :=
  log.foldl (fun stamp entry => stamp.set entry.1 entry.2) stamp

/-- Abandons the innermost level and returns to the one around it. -/
def closeLevel (marks : Marks capacity) : Marks capacity :=
  { stamp := restore marks.stamp marks.log
    log := marks.outer.headD []
    outer := marks.outer.tail }

/-- How many states are not marked at a position. -/
def unmarked (marks : Marks capacity) (position : Nat) : Nat :=
  marks.stamp.countP fun stamped => stamped != some position

theorem unmarked_le (marks : Marks capacity) (position : Nat) :
    marks.unmarked position <= capacity :=
  Vector.countP_le_size

/-- Marking a state that was not marked leaves one fewer. -/
theorem unmarked_insert (marks : Marks capacity) (id : Fin capacity) (position : Nat)
    (absent : marks.contains id position = false) :
    (marks.insert id position).unmarked position + 1 = marks.unmarked position := by
  have differs : (marks.stamp[id] != some position) = true := by
    simpa only [contains, bne, Bool.not_eq_true'] using absent
  have counted : 0 < marks.stamp.countP fun stamped => stamped != some position :=
    Vector.countP_pos_iff.2 ⟨marks.stamp[id], Vector.getElem_mem id.isLt, differs⟩
  simp only [unmarked, insert, Vector.countP_set, Fin.getElem_fin, bne_self_eq_false,
    Bool.false_eq_true, if_false, Nat.add_zero]
  rw [Fin.getElem_fin] at differs
  rw [if_pos differs]
  exact Nat.sub_add_cancel counted

/-- The mark that was just made replaces the stamp its state had before. -/
theorem contains_insert_iff {marks : Marks capacity} {id other : Fin capacity}
    {position stamped : Nat} :
    (marks.insert id position).contains other stamped = true <->
      (id = other ∧ stamped = position) ∨ (id ≠ other ∧ marks.contains other stamped = true) := by
  simp only [contains, insert, Fin.getElem_fin, Vector.getElem_set, beq_iff_eq]
  by_cases same : id = other
  · subst same
    simp [eq_comm]
  · simp [same, Fin.val_ne_of_ne same]

/-- Opening a level is undone by closing it. -/
theorem closeLevel_openLevel (marks : Marks capacity) : marks.openLevel.closeLevel = marks := rfl

/-- Closing a level forgets what was marked in it, whatever that was. -/
theorem closeLevel_insert (marks : Marks capacity) (id : Fin capacity) (position : Nat) :
    (marks.insert id position).closeLevel = marks.closeLevel := by
  simp only [closeLevel, insert, restore, List.foldl_cons, Vector.set_set, Fin.getElem_fin,
    Vector.set_getElem_self]

end Marks

end Search
end BytePattern
