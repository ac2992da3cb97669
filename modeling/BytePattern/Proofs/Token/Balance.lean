import Mathlib.Data.List.Infix
import Mathlib.Data.List.MinMax
import Mathlib.Order.Nat
import BytePattern.Proofs.Token.Marking

namespace BytePattern

/-!
# Missing parentheses

A token list lacks an opening parenthesis wherever more groups have been closed
than were opened.  The largest such excess over all fronts of the list says how
many openings would have to stand before it.  Once they are supplied, what is
still open at the end says how many closings would have to follow.  Both numbers
are defined by counting, one front of the list at a time.

Reading from left to right, with the number of groups that are open, meets the
same parentheses one after the other.  `unmatched_append` says so, whatever is
open already and whatever follows the list.
-/

namespace Token

/-- How many openings are missing before a list, namely the largest excess of
closings over openings in any front of it. -/
def missingOpenings (tokens : List Token) : Nat :=
  (tokens.inits.map fun front =>
    front.count (parenthesis .closing) - front.count (parenthesis .opening)).foldr max 0

/-- How many closings are missing behind a list, once the missing openings stand
before it. -/
def missingClosings (tokens : List Token) : Nat :=
  missingOpenings tokens + tokens.count (parenthesis .opening) - tokens.count (parenthesis .closing)

/-- The list with its missing parentheses. -/
def balanced (tokens : List Token) : List Token :=
  List.replicate (missingOpenings tokens) (parenthesis .opening) ++ tokens ++
    List.replicate (missingClosings tokens) (parenthesis .closing)

/-! ## The largest excess -/

theorem missingOpenings_le_iff {tokens : List Token} {count : Nat} :
    missingOpenings tokens <= count <-> forall front, front <+: tokens ->
      front.count (parenthesis .closing) <= front.count (parenthesis .opening) + count := by
  constructor
  · intro bound front before
    have listed : front ∈ tokens.inits := (List.mem_inits _ _).2 before
    have largest : front.count (parenthesis .closing) - front.count (parenthesis .opening) <=
        missingOpenings tokens :=
      List.le_max_of_le (List.mem_map.2 ⟨front, listed, rfl⟩) (Nat.le_refl _)
    exact Nat.sub_le_iff_le_add'.1 (largest.trans bound)
  · intro covered
    apply List.max_le_of_forall_le
    intro excess listed
    rcases List.mem_map.1 listed with ⟨front, member, same⟩
    rw [← same]
    exact Nat.sub_le_iff_le_add'.2 (covered front ((List.mem_inits _ _).1 member))

theorem missingOpenings_eq_zero_iff {tokens : List Token} :
    missingOpenings tokens = 0 <-> forall front, front <+: tokens ->
      front.count (parenthesis .closing) <= front.count (parenthesis .opening) := by
  rw [← Nat.le_zero, missingOpenings_le_iff]
  rfl

/-- The empty front has no excess, so only the others count. -/
private theorem missingOpenings_cons_le_iff {token : Token} {rest : List Token} {count : Nat} :
    missingOpenings (token :: rest) <= count <-> forall front, front <+: rest ->
      (token :: front).count (parenthesis .closing) <=
        (token :: front).count (parenthesis .opening) + count := by
  rw [missingOpenings_le_iff]
  constructor
  · intro covered front before
    exact covered _ (List.cons_prefix_cons.2 ⟨rfl, before⟩)
  · intro covered front before
    rcases List.prefix_cons_iff.1 before with empty | ⟨back, split, later⟩
    · rw [empty]
      exact Nat.zero_le _
    · exact split ▸ covered back later

theorem missingOpenings_cons_of_side?_eq_none {token : Token} (other : token.side? = none)
    (rest : List Token) : missingOpenings (token :: rest) = missingOpenings rest := by
  apply eq_of_forall_ge_iff
  intro count
  rw [missingOpenings_cons_le_iff, missingOpenings_le_iff]
  cases token with
  | literal byte => simp
  | operator op => simp
  | parenthesis side => contradiction

theorem missingOpenings_cons_opening (rest : List Token) :
    missingOpenings (parenthesis .opening :: rest) = missingOpenings rest - 1 := by
  apply eq_of_forall_ge_iff
  intro count
  rw [missingOpenings_cons_le_iff, Nat.sub_le_iff_le_add, missingOpenings_le_iff]
  simp [Nat.add_assoc, Nat.add_comm 1]

theorem missingOpenings_cons_closing (rest : List Token) :
    missingOpenings (parenthesis .closing :: rest) = missingOpenings rest + 1 := by
  apply eq_of_forall_ge_iff
  intro count
  rw [missingOpenings_cons_le_iff]
  cases count with
  | zero =>
      constructor
      · intro covered
        exact absurd (covered [] List.nil_prefix) (by simp)
      · intro impossible
        contradiction
  | succ count =>
      rw [Nat.add_le_add_iff_right, missingOpenings_le_iff]
      simp [← Nat.add_assoc]

/-! ## Reading from left to right -/

theorem side?_parenthesis (side : Parenthesis) : (parenthesis side).side? = some side := rfl

theorem filterMap_replicate_parenthesis (side : Parenthesis) (count : Nat) :
    (List.replicate count (parenthesis side)).filterMap side? = List.replicate count side :=
  List.filterMap_replicate_of_some (side?_parenthesis side)

/-- What comes to light in a list depends on how many groups are open before it,
and of what follows it sees only how many are open then. -/
theorem unmatched_append (depth : Nat) (tokens : List Token) (rest : List Parenthesis) :
    Parenthesis.unmatched depth (tokens.filterMap side? ++ rest) =
      List.replicate (missingOpenings tokens - depth) .closing ++
        Parenthesis.unmatched
          (max depth (missingOpenings tokens) + tokens.count (parenthesis .opening) -
            tokens.count (parenthesis .closing)) rest := by
  induction tokens generalizing depth with
  | nil => simp [missingOpenings]
  | cons token tokens ih =>
      rcases token with byte | op | _ | _
      · rw [List.filterMap_cons_none rfl, ih, missingOpenings_cons_of_side?_eq_none rfl]
        simp
      · rw [List.filterMap_cons_none rfl, ih, missingOpenings_cons_of_side?_eq_none rfl]
        simp
      · rw [List.filterMap_cons_some (side?_parenthesis _), List.cons_append, Parenthesis.unmatched, ih,
          missingOpenings_cons_opening, List.count_cons_self, List.count_cons_of_ne (by decide)]
        congr 2 <;> omega
      · rw [List.filterMap_cons_some (side?_parenthesis _), List.cons_append, missingOpenings_cons_closing,
          List.count_cons_self, List.count_cons_of_ne (by decide)]
        cases depth with
        | zero =>
            rw [Parenthesis.unmatched, ih, Nat.sub_zero, Nat.sub_zero, List.replicate_succ,
              List.cons_append]
            congr 3
            omega
        | succ depth =>
            rw [Parenthesis.unmatched, ih]
            congr 2 <;> omega

/-- In a list by itself, the unmatched closings come to light before the unmatched
openings. -/
theorem unmatched_eq (tokens : List Token) :
    Parenthesis.unmatched 0 (tokens.filterMap side?) =
      List.replicate (missingOpenings tokens) .closing ++
        List.replicate (missingClosings tokens) .opening := by
  have whole := unmatched_append 0 tokens []
  rwa [List.append_nil, Nat.sub_zero, Nat.zero_max] at whole

/-- What is missing is a matter of the parentheses alone. -/
theorem missing_congr {first second : List Token}
    (same : first.filterMap side? = second.filterMap side?) :
    missingOpenings first = missingOpenings second ∧ missingClosings first = missingClosings second := by
  have lists := unmatched_eq first
  rw [same, unmatched_eq second] at lists
  have counts := fun side => congrArg (List.count side) lists
  constructor
  · simpa [List.count_replicate] using (counts .closing).symm
  · simpa [List.count_replicate] using (counts .opening).symm

/-! ## Balanced lists -/

theorem unmatched_balanced (tokens : List Token) :
    Parenthesis.unmatched 0 ((balanced tokens).filterMap side?) = [] := by
  rw [balanced, List.append_assoc, List.filterMap_append, List.filterMap_append,
    filterMap_replicate_parenthesis, filterMap_replicate_parenthesis,
    Parenthesis.unmatched_replicate_opening, unmatched_append, Nat.zero_add, Nat.sub_self, Nat.max_self]
  exact (Parenthesis.unmatched_replicate_closing_eq_nil_iff _ _).2 rfl

/-- No mark is written next to a parenthesis that faces outwards. -/
theorem marked_enclosed (openings closings : Nat) (tokens : List Token) :
    marked (List.replicate openings (parenthesis .opening) ++ tokens ++
        List.replicate closings (parenthesis .closing)) =
      List.replicate openings (parenthesis .opening) ++ marked tokens ++
        List.replicate closings (parenthesis .closing) := by
  induction closings with
  | zero =>
      rw [List.replicate_zero, List.append_nil, List.append_nil]
      induction openings with
      | zero => rfl
      | succ openings ih =>
          rw [List.replicate_succ, List.cons_append, marked_cons_of_not_ends rfl, ih, List.cons_append]
  | succ closings ih =>
      rw [List.replicate_succ', ← List.append_assoc, marked_append_of_not_begins rfl, ih,
        ← List.append_assoc]
      rfl

/-- Neither does such a parenthesis make or break a connection. -/
theorem connected_enclosed_iff (openings closings : Nat) (tokens : List Token) :
    (parenthesis .opening).Connected (List.replicate openings (parenthesis .opening) ++ tokens ++
        List.replicate closings (parenthesis .closing)) <->
      (parenthesis .opening).Connected tokens := by
  rw [connected_iff, connected_iff, marked_enclosed]
  simp [List.countP_replicate, isLiteral, isJoin]

theorem balanced_marked (tokens : List Token) : balanced (marked tokens) = marked (balanced tokens) := by
  have sides : (marked tokens).filterMap side? = tokens.filterMap side? := filterMap_marked rfl tokens
  have same := missing_congr sides
  rw [balanced, balanced, marked_enclosed, same.1, same.2]

end Token
end BytePattern
