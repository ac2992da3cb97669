import BytePattern.Proofs.Grammar.Derivation
import BytePattern.Proofs.Postorder.Counting
import BytePattern.Proofs.Regex.Outcome

namespace BytePattern

/-!
# Strict compilation accepts the grammar

No stage follows the grammar, and the check sees a list in which the groups have
been forgotten.  An operator inside a group might therefore be thought to take
an operand from outside it.  It cannot, because the check is a count, and only
connected patterns have the right number of literals.  A connected pattern is
read group by group.
-/

namespace Compilation

open Grammar (Spells nested)

/-- A pattern that is arranged to the postorder of some expression, with nothing
dropped, is spelled by an expression. -/
theorem exists_spells_of_arranged {pattern : List UInt8} {tree : Expression}
    (unreserved : Operator.concat.byte ∉ pattern)
    (postorder : (arranged pattern).postorder = tree.postorder)
    (dropped : (arranged pattern).dropped = []) :
    exists expression, Spells .sequence expression pattern := by
  apply Grammar.exists_spells_of_connected unreserved
  · exact Postorder.connected_of_arrange_marked postorder
  · have balanced : (arranged pattern).dropped = _ := Postorder.dropped_arrange _
    rw [dropped, Token.filterMap_marked rfl] at balanced
    exact balanced.symm

/-- What is known of a pattern if nothing of it was dropped and its arrangement
passes the check. -/
theorem nested_or_spelled_of_check {pattern : List UInt8}
    (unreserved : Operator.concat.byte ∉ pattern) (dropped : (arranged pattern).dropped = [])
    (passed : Postorder.check (arranged pattern).postorder = .ok ()) :
    (exists depth, pattern = nested depth) ∨
      exists expression, Spells .sequence expression pattern := by
  rcases (Postorder.check_eq_ok_iff _).1 passed with empty | ⟨tree, spelled⟩
  · apply Or.inl
    apply Postorder.exists_nested_of_arrange
    change arranged pattern = ⟨[], []⟩
    rw [← empty, ← dropped]
  · exact Or.inr (exists_spells_of_arranged unreserved spelled.symm dropped)

end Compilation

namespace Regex

open Grammar (Spells nested)

/-- Under strict settings, the patterns that compile are the nests of
parentheses and those that the grammar derives.  The postorder is then empty, or
that of the tree of the derivation. -/
theorem exists_compile_strict_iff (pattern : String) (tokens : List Token) :
    (exists regex, compile .strict pattern = .ok regex ∧ regex.postorder = tokens) <->
      (exists depth, bytes pattern = nested depth ∧ tokens = []) ∨
        exists expression, Spells .sequence expression (bytes pattern) ∧
          tokens = expression.postorder := by
  constructor
  · intro compiles
    rcases (exists_compile_iff .strict pattern tokens).1 compiles with
      ⟨unreserved, permitted, same, passed⟩
    rw [same] at passed ⊢
    rcases Compilation.nested_or_spelled_of_check unreserved (permitted rfl) passed with
      ⟨depth, nests⟩ | ⟨expression, spelled⟩
    · refine Or.inl ⟨depth, nests, ?_⟩
      rw [Compilation.arranged, nests, Postorder.arrange_nested]
    · refine Or.inr ⟨expression, spelled, ?_⟩
      rw [Compilation.arranged, Postorder.arrange_of_spells spelled]
  · rintro (⟨depth, nests, empty⟩ | ⟨expression, spelled, same⟩)
    · exact empty ▸ exists_compile_of_nested .strict nests
    · exact same ▸ exists_compile_of_spells .strict spelled

end Regex
end BytePattern
