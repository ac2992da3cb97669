import BytePattern.Proofs.Automaton.Language
import BytePattern.Proofs.Regex.Outcome
import BytePattern.Proofs.Search.Decision

namespace BytePattern

/-!
# What a compiled pattern matches

The stages of compilation and the search agree through two trees.  The tree that
the grammar gives to a pattern is the one whose postorder the pattern is
arranged to, and the automaton of a postorder holds the tree of that postorder.
These are the same tree, since a postorder belongs to one tree only.  The search
decides whether the automaton accepts, and so whether the tree matches.
-/

namespace Recognizer

/-- In an assembled automaton, to accept is to reach the exit. -/
theorem Tidy.accepts_iff {recognizer : Recognizer} (tidy : recognizer.Tidy)
    (inside : recognizer.root.entry < recognizer.automaton.size) (word : List UInt8) :
    recognizer.accepts word = true <->
      recognizer.automaton.Path recognizer.root.entry word recognizer.root.exit := by
  have reached : recognizer.automaton.AcceptsFrom recognizer.root.entry word <->
      recognizer.automaton.Path recognizer.root.entry word recognizer.root.exit := by
    constructor
    · rintro ⟨last, state, path, found, terminal⟩
      exact (tidy.terminal_iff found).1 terminal ▸ path
    · intro path
      exact ⟨_, _, path, tidy.exit, rfl⟩
  rw [← reached, accepts, decide_eq_true_eq]
  rcases Search.verdict_start tidy.unmixed tidy.closed inside word with
    ⟨verdict, accepted⟩ | ⟨verdict, rejected⟩
  · exact iff_of_true verdict accepted
  · rw [verdict]
    exact iff_of_false (fun impossible => nomatch impossible) rejected

theorem Realizes.accepts_iff {recognizer : Recognizer} {tree : Expression}
    (realizes : recognizer.Realizes tree) (word : List UInt8) :
    recognizer.accepts word = true <-> tree.Matches word := by
  have bounds := realizes.laid.bounds
  rw [realizes.tidy.accepts_iff bounds.2.1, realizes.path_iff]

theorem void_accepts_iff (word : List UInt8) : void.accepts word = true <-> word = [] := by
  rw [void_tidy.accepts_iff (by decide), void_path_iff]

end Recognizer

namespace Regex

open Grammar (Spells nested)

variable {settings : Settings} {pattern : String} {regex : Regex}

theorem isMatch_iff_of_postorder {tree : Expression}
    (compiled : compile settings pattern = .ok regex) (postorder : regex.postorder = tree.postorder)
    (input : List UInt8) : regex.isMatch input = true <-> tree.Matches input := by
  rcases Recognizer.realizes_of_assemble (assemble_of_compile compiled) with
    ⟨empty, _⟩ | ⟨other, spelled, realizes⟩
  · rw [postorder] at empty
    exact absurd empty tree.postorder_ne_nil
  · have same : other = tree := Expression.postorder_injective (spelled.trans postorder)
    rw [isMatch, realizes.accepts_iff, same]

theorem isMatch_iff_of_postorder_nil (compiled : compile settings pattern = .ok regex)
    (postorder : regex.postorder = []) (input : List UInt8) :
    regex.isMatch input = true <-> input = [] := by
  rcases Recognizer.realizes_of_assemble (assemble_of_compile compiled) with
    ⟨_, same⟩ | ⟨tree, spelled, _⟩
  · rw [isMatch, same, Recognizer.void_accepts_iff]
  · exact absurd (spelled.trans postorder) tree.postorder_ne_nil

/-- Every pattern of the grammar compiles, under any settings, and matches what
its expression matches.  So does every nest of parentheses, which matches the
empty input only. -/
theorem exists_compile_and_isMatch_iff (settings : Settings) (pattern : String) :
    (forall expression, Spells .sequence expression (bytes pattern) ->
        exists regex, compile settings pattern = .ok regex ∧
          forall input, regex.isMatch input = true <-> expression.Matches input) ∧
      (forall depth, bytes pattern = nested depth ->
        exists regex, compile settings pattern = .ok regex ∧
          forall input, regex.isMatch input = true <-> input = []) := by
  constructor
  · intro expression spelled
    rcases exists_compile_of_spells settings spelled with ⟨regex, compiled, postorder⟩
    exact ⟨regex, compiled, isMatch_iff_of_postorder compiled postorder⟩
  · intro depth nests
    rcases exists_compile_of_nested settings nests with ⟨regex, compiled, postorder⟩
    exact ⟨regex, compiled, isMatch_iff_of_postorder_nil compiled postorder⟩

/-- The choice is between the last two bytes, not between two sequences. -/
theorem exists_compile_and_isMatch_iff_choice_behind_byte :
    Spells .sequence (.concat (.literal 0x61) (.alternate (.literal 0x62) (.literal 0x63)))
        (bytes "ab|c") ∧
      bytes "(())" = nested 2 ∧
      forall settings,
        (exists regex, compile settings "ab|c" = .ok regex ∧ forall input,
          regex.isMatch input = true <->
            (Expression.concat (.literal 0x61)
              (.alternate (.literal 0x62) (.literal 0x63))).Matches input) ∧
        (exists regex, compile settings "(())" = .ok regex ∧ forall input,
          regex.isMatch input = true <-> input = []) := by
  have read : forall byte, Grammar.IsLiteral byte -> Spells .repetition (.literal byte) [byte] :=
    fun byte own => .ofAtom (.literal own)
  have first : Spells .sequence (.literal 0x61) [0x61] :=
    .ofChoice (.ofRepetition (read 0x61 (by decide)))
  have second : Spells .choice (.alternate (.literal 0x62) (.literal 0x63)) [0x62, 0x7c, 0x63] :=
    .alternate (.ofRepetition (read 0x62 (by decide))) (read 0x63 (by decide))
  have spelled := Spells.concat first second
  refine ⟨spelled, rfl, ?_⟩
  intro settings
  constructor
  · exact (exists_compile_and_isMatch_iff settings "ab|c").1 _ spelled
  · exact (exists_compile_and_isMatch_iff settings "(())").2 2 rfl

end Regex
end BytePattern
