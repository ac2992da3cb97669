import BytePattern.Grammar
import BytePattern.Proofs.Token.Marking

namespace BytePattern
namespace Grammar

/-!
# Deriving a pattern from the left

A pattern is read byte by byte.  What has been read of a group either awaits an
operand or is complete, which means that the group could be closed right there.
A byte that ends an operand leaves the front complete, and any other leaves it
awaiting one.  In a connected list no byte ever meets a front of the wrong kind,
and hence a balanced one is a sequence at its end.

A complete front keeps its last repetition apart, since a further operator would
repeat that and nothing before it.  The derivation needs no more than this, and
in particular no precedence: the levels of the grammar decide where an operand
goes at the moment at which it is read.
-/

/-- The front of a choice, behind which a repetition is due. -/
inductive AwaitsBranch : List UInt8 -> Prop where
  | first : AwaitsBranch []
  | next {left : Expression} {front : List UInt8} :
      Spells .choice left front -> AwaitsBranch (front ++ [Operator.alternate.byte])

/-- The front of a sequence, behind which a repetition is due. -/
inductive Awaits : List UInt8 -> Prop where
  | first {branches : List UInt8} : AwaitsBranch branches -> Awaits branches
  | next {left : Expression} {front branches : List UInt8} :
      Spells .sequence left front -> AwaitsBranch branches -> Awaits (front ++ branches)

/-- The front of a sequence, together with the repetition that it awaited. -/
inductive Complete : List UInt8 -> Prop where
  | mk {front last : List UInt8} {operand : Expression} :
      Awaits front -> Spells .repetition operand last -> Complete (front ++ last)

theorem AwaitsBranch.choice {branches last : List UInt8} {operand : Expression}
    (awaits : AwaitsBranch branches) (spelled : Spells .repetition operand last) :
    exists expression, Spells .choice expression (branches ++ last) := by
  cases awaits with
  | first => exact ⟨operand, .ofRepetition spelled⟩
  | next left =>
      rw [List.append_assoc]
      exact ⟨_, .alternate left spelled⟩

namespace Complete

variable {front inner : List UInt8}

/-- The last choice of a complete front. -/
private theorem choice (complete : Complete front) :
    exists done last expression, front = done ++ last ∧ Spells .choice expression last ∧
      (done = [] ∨ exists before, Spells .sequence before done) := by
  rcases complete with ⟨⟨branch⟩ | ⟨before, branch⟩, operand⟩
  · rcases branch.choice operand with ⟨expression, spelled⟩
    exact ⟨[], _, expression, rfl, spelled, Or.inl rfl⟩
  · rcases branch.choice operand with ⟨expression, spelled⟩
    exact ⟨_, _, expression, List.append_assoc _ _ _, spelled, Or.inr ⟨_, before⟩⟩

theorem sequence (complete : Complete front) : exists expression, Spells .sequence expression front := by
  rcases complete.choice with ⟨done, last, expression, split, spelled, empty | ⟨before, first⟩⟩
  · rw [split, empty, List.nil_append]
    exact ⟨expression, .ofChoice spelled⟩
  · rw [split]
    exact ⟨_, .concat first spelled⟩

theorem awaits (complete : Complete front) : Awaits front := by
  rcases complete.sequence with ⟨expression, spelled⟩
  rw [← List.append_nil front]
  exact .next spelled .first

theorem alternate (complete : Complete front) : Awaits (front ++ [Operator.alternate.byte]) := by
  rcases complete.choice with ⟨done, last, expression, split, spelled, empty | ⟨before, first⟩⟩
  · rw [split, empty, List.nil_append]
    exact .first (.next spelled)
  · rw [split, List.append_assoc]
    exact .next first (.next spelled)

theorem repeated (complete : Complete front) {op : Operator} (repetition : op.isRepetition = true) :
    Complete (front ++ [op.byte]) := by
  rcases complete with ⟨awaits, operand⟩
  rw [List.append_assoc]
  cases op with
  | concat => contradiction
  | alternate => contradiction
  | optional => exact ⟨awaits, .optional operand⟩
  | plus => exact ⟨awaits, .plus operand⟩
  | star => exact ⟨awaits, .star operand⟩

end Complete

namespace Awaits

variable {front inner : List UInt8}

theorem literal (awaits : Awaits front) {byte : UInt8} (own : IsLiteral byte) :
    Complete (front ++ [byte]) :=
  ⟨awaits, .ofAtom (.literal own)⟩

theorem group (awaits : Awaits front) (complete : Complete inner) :
    Complete (front ++ Parenthesis.opening.byte :: (inner ++ [Parenthesis.closing.byte])) := by
  rcases complete.sequence with ⟨expression, spelled⟩
  exact ⟨awaits, .ofAtom (.group spelled)⟩

end Awaits

/-! ## Open groups -/

/-- What has been read in all groups that are open, given what was read in each
of them.  The innermost group is given separately. -/
def enclose (front : List UInt8) : List (List UInt8) -> List UInt8
  | [] => front
  | outer :: groups => enclose (outer ++ Parenthesis.opening.byte :: front) groups

theorem enclose_append (front back : List UInt8) (groups : List (List UInt8)) :
    enclose (front ++ back) groups = enclose front groups ++ back := by
  induction groups generalizing front with
  | nil => rfl
  | cons outer groups ih =>
      rw [enclose, enclose, ← ih, List.append_assoc, List.cons_append]

/-- The groups around await the one that is open.  Of which kind its own front
is, the last token tells. -/
structure Reading (before : Token) (front : List UInt8) (groups : List (List UInt8)) : Prop where
  around : forall outer, outer ∈ groups -> Awaits outer
  kind : if before.endsOperand then Complete front else Awaits front

namespace Reading

variable {before : Token} {front : List UInt8} {groups : List (List UInt8)}

theorem ofComplete (around : forall outer, outer ∈ groups -> Awaits outer)
    (ends : before.endsOperand = true) (complete : Complete front) : Reading before front groups where
  around := around
  kind := by rwa [if_pos ends]

theorem ofAwaits (around : forall outer, outer ∈ groups -> Awaits outer)
    (unfinished : before.endsOperand = false) (awaits : Awaits front) : Reading before front groups where
  around := around
  kind := by rwa [unfinished, if_neg Bool.false_ne_true]

theorem complete (reading : Reading before front groups) (ends : before.endsOperand = true) :
    Complete front := by
  have kind := reading.kind
  rwa [if_pos ends] at kind

/-- An operand may follow a front of either kind. -/
theorem awaits (reading : Reading before front groups) : Awaits front := by
  have kind := reading.kind
  split at kind
  · exact kind.awaits
  · exact kind

/-- The rest of a pattern is read to its end, where no group is open. -/
theorem exists_spells {rest : List UInt8} (reading : Reading before front groups)
    (unreserved : Operator.concat.byte ∉ rest)
    (connected : before.Connected (rest.map Token.ofByte))
    (balanced : Parenthesis.unmatched groups.length ((rest.map Token.ofByte).filterMap Token.side?) = []) :
    exists expression, Spells .sequence expression (enclose front groups ++ rest) := by
  induction rest generalizing before front groups with
  | nil =>
      cases groups with
      | nil =>
          rw [List.append_nil]
          exact (reading.complete connected).sequence
      | cons outer groups => contradiction
  | cons byte rest ih =>
      have later := List.not_mem_of_not_mem_cons unreserved
      have spelled := Token.byte_ofByte byte
      rw [List.map_cons] at connected balanced
      rw [← List.singleton_append, ← List.append_assoc, ← enclose_append]
      rcases token : Token.ofByte byte with own | op | _ | _ <;>
        rw [token] at spelled connected balanced <;>
        rcases connected with ⟨fits, connected⟩
      · have same : own = byte := spelled
        subst same
        have next : Reading (.literal own) (front ++ [own]) groups :=
          .ofComplete reading.around rfl (reading.awaits.literal (isLiteral_iff.2 token))
        exact ih next later connected balanced
      · have same : op.byte = byte := spelled
        subst same
        have complete := reading.complete (fits.resolve_right Bool.false_ne_true)
        cases repetition : op.isRepetition with
        | true =>
            have next : Reading (.operator op) (front ++ [op.byte]) groups :=
              .ofComplete reading.around repetition (complete.repeated repetition)
            exact ih next later connected balanced
        | false =>
            cases op with
            | concat => exact absurd List.mem_cons_self unreserved
            | alternate =>
                have next : Reading (.operator .alternate) (front ++ [Operator.alternate.byte]) groups :=
                  .ofAwaits reading.around rfl complete.alternate
                exact ih next later connected balanced
            | optional | plus | star => contradiction
      · have same : Parenthesis.opening.byte = byte := spelled
        subst same
        have next : Reading (.parenthesis .opening) [] (front :: groups) := by
          apply ofAwaits ?_ rfl (.first .first)
          intro outer member
          rcases List.mem_cons.1 member with here | further
          · exact here ▸ reading.awaits
          · exact reading.around outer further
        have read := ih next later connected balanced
        exact read
      · have same : Parenthesis.closing.byte = byte := spelled
        subst same
        have complete := reading.complete (fits.resolve_right Bool.false_ne_true)
        cases groups with
        | nil => contradiction
        | cons outer groups =>
            have awaits := reading.around outer List.mem_cons_self
            have next : Reading (.parenthesis .closing)
                (outer ++ Parenthesis.opening.byte :: (front ++ [Parenthesis.closing.byte])) groups := by
              apply ofComplete ?_ rfl (awaits.group complete)
              intro further member
              exact reading.around further (List.mem_cons_of_mem _ member)
            have read := ih next later connected balanced
            exact read

end Reading

/-- A pattern whose tokens are connected and whose parentheses match is spelled
by an expression. -/
theorem exists_spells_of_connected {pattern : List UInt8}
    (unreserved : Operator.concat.byte ∉ pattern)
    (connected : (Token.parenthesis .opening).Connected (pattern.map Token.ofByte))
    (balanced : Parenthesis.unmatched 0 ((pattern.map Token.ofByte).filterMap Token.side?) = []) :
    exists expression, Spells .sequence expression pattern := by
  have start : Reading (.parenthesis .opening) [] [] :=
    .ofAwaits (fun _ member => absurd member List.not_mem_nil) rfl (.first .first)
  exact start.exists_spells unreserved connected balanced

end Grammar
end BytePattern
