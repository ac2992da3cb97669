import BytePattern.Proofs.Postorder.Balance
import BytePattern.Proofs.Postorder.Translation
import BytePattern.Token.Scan

namespace BytePattern

/-!
# Patterns without operands

The grammar derives no empty group.  Nevertheless a pattern of parentheses alone
compiles if it is a single nest of them, since nothing is then left to check.
Two nests side by side do not compile: a mark is written where they meet, and it
finds no operand.
-/

namespace Token

/-- Marks are written wherever a parenthesis is opened behind one that was
closed.  If there is no mark, all openings come first. -/
theorem eq_replicate_of_marked {tokens : List Token}
    (bare : forall token, token ∈ marked tokens -> token.side? ≠ none) :
    exists openings closings, tokens =
      List.replicate openings (parenthesis .opening) ++
        List.replicate closings (parenthesis .closing) := by
  induction tokens with
  | nil => exact ⟨0, 0, rfl⟩
  | cons first rest ih =>
      have own : first ∈ marked (first :: rest) := by
        cases rest with
        | nil => exact List.mem_singleton.2 rfl
        | cons second rest => exact marked_cons_cons first second rest ▸ List.mem_cons_self
      have later : forall token, token ∈ marked rest -> token ∈ marked (first :: rest) := by
        intro token member
        cases rest with
        | nil => contradiction
        | cons second rest =>
            rw [marked_cons_cons]
            exact List.mem_cons_of_mem _ (List.mem_append_right _ member)
      rcases ih fun token member => bare token (later token member) with ⟨openings, closings, split⟩
      rcases first with byte | op | _ | _
      · exact absurd rfl (bare _ own)
      · exact absurd rfl (bare _ own)
      · exact ⟨openings + 1, closings, by rw [split, List.replicate_succ, List.cons_append]⟩
      · cases openings with
        | zero => exact ⟨0, closings + 1, by rw [split]; rfl⟩
        | succ openings =>
            rw [split, List.replicate_succ, List.cons_append, marked_cons_cons] at bare
            exact absurd rfl (bare (operator .concat) (by simp [adjoins, endsOperand, beginsOperand]))

end Token

namespace Grammar

/-- Parentheses and nothing else, each pair inside the one before. -/
def nested (depth : Nat) : List UInt8 :=
  List.replicate depth Parenthesis.opening.byte ++ List.replicate depth Parenthesis.closing.byte

/-- Parentheses and nothing else, with no closing one before an opening one. -/
def Bare (pattern : List UInt8) : Prop :=
  exists openings closings, pattern =
    List.replicate openings Parenthesis.opening.byte ++ List.replicate closings Parenthesis.closing.byte

theorem nested_succ (depth : Nat) :
    nested (depth + 1) =
      Parenthesis.opening.byte :: (nested depth ++ [Parenthesis.closing.byte]) := by
  rw [nested, List.replicate_succ, List.replicate_succ', List.cons_append, ← List.append_assoc]
  rfl

theorem unreserved_bare {pattern : List UInt8} (bare : Bare pattern) :
    Operator.concat.byte ∉ pattern := by
  rcases bare with ⟨openings, closings, split⟩
  rw [split, List.mem_append, List.mem_replicate, List.mem_replicate]
  rintro (⟨_, impossible⟩ | ⟨_, impossible⟩) <;> exact absurd impossible (by decide)

theorem unreserved_nested (depth : Nat) : Operator.concat.byte ∉ nested depth :=
  unreserved_bare ⟨depth, depth, rfl⟩

end Grammar

namespace Postorder

open Grammar (Bare nested)

/-- A nest leaves no trace, whatever waits in front of it. -/
theorem arrangeFrom_nested (depth : Nat) (waiting : List Operator) (enclosing : List (List Operator))
    (rest : List Token) :
    arrangeFrom waiting enclosing (Token.marked ((nested depth).map Token.ofByte) ++ rest) =
      arrangeFrom waiting enclosing rest := by
  induction depth generalizing waiting enclosing rest with
  | zero => rfl
  | succ depth ih =>
      rw [Grammar.nested_succ, List.map_cons, List.map_append, List.map_singleton,
        Token.ofByte_parenthesis, Token.ofByte_parenthesis, Token.marked_cons_of_not_ends rfl,
        Token.marked_append_of_not_begins rfl, List.cons_append, List.append_assoc, arrangeFrom, ih]
      rfl

theorem arrange_nested (depth : Nat) :
    arrange (Token.marked ((nested depth).map Token.ofByte)) = ⟨[], []⟩ := by
  have whole := arrangeFrom_nested depth [] [] []
  rwa [List.append_nil] at whole

/-- Parentheses have nothing to arrange if no mark is written between them, and
no other list has. -/
theorem arrange_marked_eq_nil_iff (tokens : List Token) :
    (arrange (Token.marked tokens)).postorder = [] <->
      exists openings closings, tokens =
        List.replicate openings (.parenthesis .opening) ++
          List.replicate closings (.parenthesis .closing) := by
  constructor
  · intro empty
    apply Token.eq_replicate_of_marked
    have moved := perm_arrange (Token.marked tokens)
    rw [empty] at moved
    intro token member absent
    have kept : token ∈ (Token.marked tokens).filter fun token => token.side?.isNone :=
      List.mem_filter.2 ⟨member, by rw [absent]; rfl⟩
    exact List.not_mem_nil (moved.mem_iff.2 kept)
  · rintro ⟨openings, closings, split⟩
    rw [split, ← List.append_nil (List.replicate openings _), Token.marked_enclosed]
    exact postorder_arrange_enclosed openings closings []

/-- The same, said of bytes. -/
theorem arrange_bytes_eq_nil_iff (pattern : List UInt8) :
    (arrange (Token.marked (pattern.map Token.ofByte))).postorder = [] <-> Bare pattern := by
  rw [arrange_marked_eq_nil_iff]
  constructor
  · rintro ⟨openings, closings, split⟩
    have spelled := Token.map_byte_map_ofByte pattern
    rw [split, List.map_append, List.map_replicate, List.map_replicate] at spelled
    exact ⟨openings, closings, spelled.symm⟩
  · rintro ⟨openings, closings, split⟩
    refine ⟨openings, closings, ?_⟩
    rw [split, List.map_append, List.map_replicate, List.map_replicate, Token.ofByte_parenthesis,
      Token.ofByte_parenthesis]

/-- Only a nest has nothing to arrange and nothing to drop. -/
theorem exists_nested_of_arrange {pattern : List UInt8}
    (empty : arrange (Token.marked (pattern.map Token.ofByte)) = ⟨[], []⟩) :
    exists depth, pattern = nested depth := by
  rcases (arrange_bytes_eq_nil_iff pattern).1 (congrArg Arrangement.postorder empty) with
    ⟨openings, closings, split⟩
  have balanced := dropped_arrange (Token.marked (pattern.map Token.ofByte))
  rw [empty, Token.filterMap_marked rfl, split, List.map_append, List.map_replicate, List.map_replicate,
    Token.ofByte_parenthesis, Token.ofByte_parenthesis, List.filterMap_append,
    Token.filterMap_replicate_parenthesis, Token.filterMap_replicate_parenthesis,
    Parenthesis.unmatched_replicate_opening, Nat.zero_add] at balanced
  have same := (Parenthesis.unmatched_replicate_closing_eq_nil_iff openings closings).1 balanced.symm
  exact ⟨openings, same ▸ split⟩

end Postorder
end BytePattern
