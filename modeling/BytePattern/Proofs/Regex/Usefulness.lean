import BytePattern.Proofs.Automaton.Passage
import BytePattern.Proofs.Postorder.Conservation
import BytePattern.Proofs.Regex.Meaning

namespace BytePattern

/-!
# What an automaton is made for

Every state of an assembled automaton lies on a path from its entry to its exit,
and such a path spells an accepted input.  So there is an accepted input for every
literal of a postorder that reads the byte in the very states that were made for
it, and there is one at all, even for the empty list.

This is said of the automaton.  A search that accepts the input may have read it
in other states: of two alternatives that read the same, the first is enough.

Arranging a pattern moves its operators, but its literals keep their order.  Hence
a literal of the pattern is found in the postorder by the literals before it.
-/

namespace Recognizer

/-- Some accepted input is read by way of the literal that stands behind the given
front, in the states that were made for it. -/
def ConsumesBehind (recognizer : Recognizer) (front : List Token) (byte : UInt8) : Prop :=
  exists assembly input, Assembly.feedAll {} 0 front = .ok assembly ∧
    recognizer.Consumes assembly.automaton.fresh byte input ∧ recognizer.accepts input = true

/-- Nothing in the automaton of a postorder is in vain. -/
structure Useful (recognizer : Recognizer) (tokens : List Token) : Prop where
  trim : recognizer.Trim
  accepting : exists input, recognizer.accepts input = true
  consuming : forall front byte back, tokens = front ++ .literal byte :: back ->
    recognizer.ConsumesBehind front byte

theorem useful_of_assemble {tokens : List Token} {recognizer : Recognizer}
    (assembled : assemble tokens = .ok recognizer) : recognizer.Useful tokens := by
  have trim := trim_of_assemble assembled
  have inside := entry_lt_size_of_assemble assembled
  have accepted := (tidy_of_assemble assembled).accepts_iff inside
  refine ⟨trim, ?_, ?_⟩
  · rcases (trim _ inside).leaves with ⟨word, path⟩
    exact ⟨word, (accepted word).2 path⟩
  · intro front byte back split
    subst split
    rcases exists_consumes_of_assemble assembled with ⟨assembly, input, before, consumes⟩
    exact ⟨assembly, input, before, consumes, (accepted input).2 consumes.path⟩

end Recognizer

namespace Regex

variable {settings : Settings} {pattern : String} {regex : Regex}

/-- The literals of a pattern are those of its postorder, in the same order. -/
theorem filter_isLiteral_of_compile (compiled : compile settings pattern = .ok regex) :
    regex.postorder.filter Token.isLiteral =
      ((bytes pattern).map Token.ofByte).filter Token.isLiteral := by
  have outcome := (compile_eq_ok_iff.1 compiled).2
  rw [((Compilation.outcome_run_eq_ok_iff _ _ _ _).1 outcome).2.2.1, Compilation.arranged,
    Postorder.filter_isLiteral_arrange, Token.filter_isLiteral_marked]

/-- Behind every front of a postorder, each state lies on a path through one of
the fragments that are there, so that composing them leaves no state behind.  A
postorder that passes the check, and every pattern that compiles, has an automaton
all of whose states lie on a path from its entry to its exit.  It accepts some
input, and for each literal there is an accepted input that is read by way of it. -/
theorem no_state_in_vain :
    (forall (tokens : List Token) (built : Assembly), Assembly.feedAll {} 0 tokens = .ok built ->
      forall id, id < built.automaton.size ->
        exists whole, whole ∈ built.fragments ∧ built.automaton.Passes whole id) ∧
    (forall tokens, Postorder.check tokens = .ok () ->
      exists recognizer, Recognizer.assemble tokens = .ok recognizer ∧ recognizer.Useful tokens) ∧
    forall (settings : Settings) (pattern : String) (regex : Regex),
      compile settings pattern = .ok regex ->
        regex.recognizer.Useful regex.postorder ∧
        (exists input, regex.isMatch input = true) ∧
        forall front byte back, bytes pattern = front ++ byte :: back -> Grammar.IsLiteral byte ->
          exists before behind, regex.postorder = before ++ .literal byte :: behind ∧
            before.filter Token.isLiteral = (front.map Token.ofByte).filter Token.isLiteral ∧
            regex.recognizer.ConsumesBehind before byte := by
  refine ⟨?_, ?_, ?_⟩
  · intro tokens built taken id inside
    rcases Assembly.exists_holds_of_feedAll taken with ⟨forest, _, holds⟩
    exact holds.exists_passes inside
  · intro tokens passed
    rcases Recognizer.check_eq_ok_iff_assemble.1 passed with ⟨recognizer, assembled⟩
    exact ⟨recognizer, assembled, Recognizer.useful_of_assemble assembled⟩
  · intro settings pattern regex compiled
    have useful := Recognizer.useful_of_assemble (assemble_of_compile compiled)
    refine ⟨useful, useful.accepting, ?_⟩
    intro front byte back split own
    have typed : (bytes pattern).map Token.ofByte =
        front.map Token.ofByte ++ .literal byte :: back.map Token.ofByte := by
      rw [split, List.map_append, List.map_cons, Grammar.isLiteral_iff.1 own]
    rcases Token.exists_behind_same_literals (filter_isLiteral_of_compile compiled) typed with
      ⟨before, behind, placed, same⟩
    exact ⟨before, behind, placed, same, useful.consuming before byte behind placed⟩

/-- No search reads the second of two equal bytes, but a path leads through it. -/
theorem no_state_in_vain_second_of_equal_choices :
    (exists built, Assembly.feedAll {} 0 [.literal 0x61, .literal 0x61] = .ok built ∧
        built.automaton.size = 4 ∧ exists whole, whole ∈ built.fragments ∧
          built.automaton.Passes whole 1) ∧
      (exists recognizer,
        Recognizer.assemble [.literal 0x61, .literal 0x61, .operator .alternate] = .ok recognizer ∧
          exists input, recognizer.Consumes ⟨2, 3⟩ 0x61 input ∧ recognizer.accepts input = true) ∧
      exists regex, compile .lenient "a|a)" = .ok regex ∧ regex.recognizer.Trim ∧
        (exists input, regex.isMatch input = true) ∧
        exists before behind, regex.postorder = before ++ .literal 0x61 :: behind ∧
          before.filter Token.isLiteral = [.literal 0x61] ∧
          regex.recognizer.ConsumesBehind before 0x61 := by
  have front : exists built,
      Assembly.feedAll {} 0 [.literal 0x61, .literal 0x61] = .ok built ∧ built.automaton.size = 4 :=
    ⟨_, rfl, rfl⟩
  have permitted : exists regex, compile .lenient "a|a)" = .ok regex := ⟨_, rfl⟩
  rcases front with ⟨built, taken, size⟩
  rcases permitted with ⟨regex, compiled⟩
  refine ⟨⟨built, taken, size, ?_⟩, ?_, regex, compiled, ?_⟩
  · exact no_state_in_vain.1 _ built taken 1 (by lia)
  · rcases no_state_in_vain.2.1 [.literal 0x61, .literal 0x61, .operator .alternate] rfl with
      ⟨recognizer, assembled, useful⟩
    rcases useful.consuming [.literal 0x61] 0x61 [.operator .alternate] rfl with
      ⟨assembly, input, before, consumes, accepted⟩
    cases before
    exact ⟨recognizer, assembled, input, consumes, accepted⟩
  · rcases no_state_in_vain.2.2 .lenient "a|a)" regex compiled with ⟨useful, accepting, literals⟩
    exact ⟨useful.trim, accepting, literals [0x61, 0x7c] 0x61 [0x29] rfl (by decide)⟩

end Regex
end BytePattern
