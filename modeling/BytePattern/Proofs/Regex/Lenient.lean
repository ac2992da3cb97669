import BytePattern.Proofs.Grammar.Derivation
import BytePattern.Proofs.Grammar.Placement
import BytePattern.Proofs.Regex.Balance

namespace BytePattern

/-!
# Lenient compilation accepts what is in place

With strict settings one has to count parentheses to know whether a pattern is
accepted.  With lenient settings it is enough to look at neighbouring bytes.  A
pattern that is in place stays in place when its missing parentheses are
supplied, the grammar then derives it, and lenient settings make the same of it
as strict ones make of the derived pattern.

In the other direction there is only the number of literals to go by.  A pattern
that is not in place has one literal too few, and an operator runs short.  It
never has too many.
-/

namespace Regex

open Compilation (arranged)
open Grammar (Bare WellPlaced)

variable {pattern : String}

/-- The balanced pattern is derived from the grammar. -/
theorem exists_spells_balanced (unreserved : Operator.concat.byte ∉ bytes pattern)
    (placed : WellPlaced (bytes pattern)) :
    exists expression, Grammar.Spells .sequence expression (bytes (balanced pattern)) := by
  apply Grammar.exists_spells_of_connected (unreserved_balanced unreserved)
  · rw [map_ofByte_bytes_balanced, Token.balanced]
    exact (Token.connected_enclosed_iff _ _ _).2 ((Grammar.wellPlaced_iff_connected unreserved).1 placed)
  · rw [map_ofByte_bytes_balanced]
    exact Token.unmatched_balanced _

theorem exists_compile_of_wellPlaced (unreserved : Operator.concat.byte ∉ bytes pattern)
    (placed : WellPlaced (bytes pattern)) : exists regex, compile .lenient pattern = .ok regex := by
  rcases exists_spells_balanced unreserved placed with ⟨expression, spelled⟩
  rcases exists_compile_of_spells .strict spelled with ⟨regex, compiled, _⟩
  rw [compile_strict_balanced unreserved] at compiled
  cases lenient : compile .lenient pattern with
  | error failure =>
      rw [lenient] at compiled
      contradiction
  | ok own => exact ⟨own, rfl⟩

theorem exists_compile_of_bare (bare : Bare (bytes pattern)) :
    exists regex, compile .lenient pattern = .ok regex := by
  have empty : (arranged (bytes pattern)).postorder = [] :=
    (Postorder.arrange_bytes_eq_nil_iff _).2 bare
  have compiles := (exists_compile_iff .lenient pattern []).2
    ⟨Grammar.unreserved_bare bare, nofun, empty.symm, rfl⟩
  rcases compiles with ⟨regex, compiled, _⟩
  exact ⟨regex, compiled⟩

theorem bare_or_wellPlaced_of_compile {regex : Regex} (compiled : compile .lenient pattern = .ok regex) :
    Bare (bytes pattern) ∨ WellPlaced (bytes pattern) := by
  rcases (exists_compile_iff .lenient pattern regex.postorder).1 ⟨regex, compiled, rfl⟩ with
    ⟨unreserved, _, order, passed⟩
  rcases (Postorder.check_eq_ok_iff _).1 passed with empty | ⟨tree, spelled⟩
  · exact Or.inl ((Postorder.arrange_bytes_eq_nil_iff _).1 (order.symm.trans empty))
  · have connected := Postorder.connected_of_arrange_marked (order.symm.trans spelled.symm)
    exact Or.inr ((Grammar.wellPlaced_iff_connected unreserved).2 connected)

/-- What lenient settings do not accept, and what holds no reserved byte, is refused
for a missing operand. -/
theorem compile_lenient_cases (unreserved : Operator.concat.byte ∉ bytes pattern) :
    (exists regex, compile .lenient pattern = .ok regex) ∨
      exists op position, compile .lenient pattern = .error (.refused (.missingOperand op position)) := by
  have outcome : (Compilation.run .lenient (bytes pattern)).outcome =
      Compilation.conclude (arranged (bytes pattern)).postorder :=
    Compilation.outcome_run_of_unreserved .lenient unreserved
  rw [compile_eq_map, outcome]
  rcases Compilation.conclude_arranged_cases (bytes pattern) with
    ⟨made, completed⟩ | ⟨op, position, refused⟩
  · rw [completed]
    exact Or.inl ⟨_, rfl⟩
  · rw [refused]
    exact Or.inr ⟨op, position, rfl⟩

/-- Under lenient settings, a pattern without a reserved byte is accepted if and only
if its bytes are in place, or it is bare.  All other such patterns lack an operand.
No pattern at all leaves several expressions behind, whatever the settings. -/
theorem exists_compile_lenient_iff :
    (forall pattern : String, Operator.concat.byte ∉ bytes pattern ->
        ((exists regex, compile .lenient pattern = .ok regex) <->
          Bare (bytes pattern) ∨ WellPlaced (bytes pattern)) ∧
        (¬ (Bare (bytes pattern) ∨ WellPlaced (bytes pattern)) ->
          exists op position, compile .lenient pattern = .error (.refused (.missingOperand op position)))) ∧
      forall (settings : Settings) (pattern : String) (count : Nat),
        compile settings pattern ≠ .error (.refused (.danglingOperands count)) := by
  constructor
  · intro pattern unreserved
    constructor
    · constructor
      · rintro ⟨regex, compiled⟩
        exact bare_or_wellPlaced_of_compile compiled
      · rintro (bare | placed)
        · exact exists_compile_of_bare bare
        · exact exists_compile_of_wellPlaced unreserved placed
    · intro misplaced
      rcases compile_lenient_cases unreserved with ⟨regex, compiled⟩ | refused
      · exact absurd (bare_or_wellPlaced_of_compile compiled) misplaced
      · exact refused
  · intro settings pattern count left
    rcases compile_cases settings pattern with
      ⟨_, other⟩ | ⟨_, other⟩ | ⟨_, other⟩ | ⟨_, _, other⟩ <;>
        rw [left] at other <;> cases other

/-- The closing parenthesis is where the second operand should begin, although it is
dropped and an operand stands behind it. -/
theorem exists_compile_lenient_iff_operand_behind_closing :
    Operator.concat.byte ∉ bytes "a|)b" ∧
      ¬ (Bare (bytes "a|)b") ∨ WellPlaced (bytes "a|)b")) ∧
      exists op position, compile .lenient "a|)b" = .error (.refused (.missingOperand op position)) := by
  have unreserved : Operator.concat.byte ∉ bytes "a|)b" := by decide
  have misplaced : ¬ (Bare (bytes "a|)b") ∨ WellPlaced (bytes "a|)b")) := by
    rintro (⟨openings, closings, split⟩ | placed)
    · have member : 0x61 ∈ bytes "a|)b" := by decide
      rw [split, List.mem_append, List.mem_replicate, List.mem_replicate] at member
      rcases member with ⟨_, impossible⟩ | ⟨_, impossible⟩ <;> exact absurd impossible (by decide)
    · rcases placed.followed [0x61] _ [0x29, 0x62] rfl (Or.inr rfl) with ⟨next, found, begins⟩
      cases found
      exact absurd begins (by decide)
  exact ⟨unreserved, misplaced, (exists_compile_lenient_iff.1 "a|)b" unreserved).2 misplaced⟩

end Regex
end BytePattern
