import BytePattern.Proofs.Regex.Outcome
import BytePattern.Proofs.Search.Safety
import BytePattern.Recognizer

namespace BytePattern

/-!
# Patterns cause no defects

Each stage trusts the one before it.  The check trusts that no parenthesis is left,
the assembly trusts the check, and a search trusts that all states exist which the
assembly has mentioned.  None of them is ever disappointed, and so whoever compiles
a pattern either gets a regular expression or is told what is wrong with the pattern.
Matching an input never fails at all.
-/

namespace Recognizer

variable {tokens : List Token} {recognizer : Recognizer}

theorem inside_of_assemble (assembled : assemble tokens = .ok recognizer) (input : List UInt8)
    {search : Search recognizer.automaton}
    (reached : (Search.start recognizer.automaton recognizer.root.entry input).Becomes search) :
    search.Inside := by
  have begun := Search.inside_start (entry_lt_size_of_assemble assembled) input
  exact begun.becomes (tidy_of_assemble assembled).closed reached

/-- A search from the entry always has an answer. -/
theorem acceptsFrom_entry_of_assemble (assembled : assemble tokens = .ok recognizer)
    (input : List UInt8) :
    recognizer.acceptsFrom recognizer.root.entry input = .ok (recognizer.accepts input) := by
  have begun := Search.inside_start (entry_lt_size_of_assemble assembled) input
  have kept := begun.verdict_ne_strayed (tidy_of_assemble assembled).closed
  rw [acceptsFrom, accepts]
  cases verdict : (Search.start recognizer.automaton recognizer.root.entry input).verdict with
  | accepted => rfl
  | rejected => rfl
  | strayed missing => exact absurd verdict (kept missing)

end Recognizer

namespace Regex

/-- No parenthesis gets as far as the check.  What passes the check is assembled to its
end, and never is a fragment used that is not there.  Hence compiling yields a regular
expression or a refusal, and matching yields an answer, without asking for any
state that does not exist. -/
theorem compile_and_match_without_defect :
    (forall (settings : Settings) (tokens postorder : List Token),
        Postorder.ofInfix settings tokens = .ok postorder ->
          (forall side, .parenthesis side ∉ postorder) ∧
            forall position, Postorder.check postorder ≠ .error (.parenthesis position)) ∧
      (forall tokens : List Token, Postorder.check tokens = .ok () ->
        (exists recognizer, Recognizer.assemble tokens = .ok recognizer) ∧
          forall front rest, tokens = front ++ rest ->
            exists built, Assembly.feedAll {} 0 front = .ok built ∧ built.Within) ∧
      (forall (settings : Settings) (pattern : String),
        (exists regex, compile settings pattern = .ok regex) ∨
          exists refusal, compile settings pattern = .error (.refused refusal)) ∧
      forall (settings : Settings) (pattern : String) (regex : Regex),
        compile settings pattern = .ok regex -> forall input : List UInt8,
          (forall search,
            (Search.start regex.recognizer.automaton regex.recognizer.root.entry input).Becomes search ->
              search.Inside) ∧
            regex.recognizer.acceptsFrom regex.recognizer.root.entry input =
              .ok (regex.isMatch input) := by
  refine ⟨?_, ?_, ?_, ?_⟩
  · intro settings tokens postorder arranged
    have free := Postorder.parenthesis_not_mem_of_ofInfix arranged
    refine ⟨free, ?_⟩
    intro position failed
    rcases Recognizer.exists_mem_of_check_parenthesis failed with ⟨side, member⟩
    exact free side member
  · intro tokens passed
    rcases Recognizer.check_eq_ok_iff_assemble.1 passed with ⟨recognizer, assembled⟩
    refine ⟨⟨recognizer, assembled⟩, ?_⟩
    intro front rest split
    subst split
    rcases Recognizer.exists_feedAll_of_assemble assembled with ⟨built, taken⟩
    exact ⟨built, taken, Assembly.within_of_feedAll taken⟩
  · intro settings pattern
    rcases compile_cases settings pattern with
      compiled | ⟨position, refused⟩ | ⟨side, refused⟩ | ⟨op, position, refused⟩
    · exact Or.inl compiled
    · exact Or.inr ⟨_, refused⟩
    · exact Or.inr ⟨_, refused⟩
    · exact Or.inr ⟨_, refused⟩
  · intro settings pattern regex compiled input
    have assembled := assemble_of_compile compiled
    exact ⟨fun _ => Recognizer.inside_of_assemble assembled input,
      Recognizer.acceptsFrom_entry_of_assemble assembled input⟩

/-- A pattern that closes a group too many, and repeats a repetition. -/
theorem compile_and_match_without_defect_repeated_behind_closing :
    exists regex, compile .lenient "a)*+" = .ok regex ∧
      regex.postorder = [.literal 0x61, .operator .star, .operator .plus] ∧
      Postorder.ofInfix .lenient
          [.literal 0x61, .parenthesis .closing, .operator .star, .operator .plus] = .ok regex.postorder ∧
      (forall side, .parenthesis side ∉ regex.postorder) ∧
      Postorder.check regex.postorder = .ok () ∧
      (exists built, Assembly.feedAll {} 0 [.literal 0x61, .operator .star] = .ok built ∧ built.Within) ∧
      forall input,
        (Search.start regex.recognizer.automaton regex.recognizer.root.entry input).Inside ∧
          regex.recognizer.acceptsFrom regex.recognizer.root.entry input =
            .ok (regex.isMatch input) := by
  have compiles : exists regex, compile .lenient "a)*+" = .ok regex ∧
      regex.postorder = [.literal 0x61, .operator .star, .operator .plus] :=
    ⟨_, rfl, rfl⟩
  rcases compiles with ⟨regex, compiled, postorder⟩
  have arranged : Postorder.ofInfix .lenient
      [.literal 0x61, .parenthesis .closing, .operator .star, .operator .plus] = .ok regex.postorder := by
    rw [postorder]
    rfl
  have passed : Postorder.check regex.postorder = .ok () := by
    rw [postorder]
    rfl
  rcases compile_and_match_without_defect with ⟨free, assembled, _, matched⟩
  refine ⟨regex, compiled, postorder, arranged, (free _ _ _ arranged).1, passed, ?_, ?_⟩
  · exact (assembled _ passed).2 _ [.operator .plus] postorder
  · intro input
    have answered := matched _ _ _ compiled input
    exact ⟨answered.1 _ .refl, answered.2⟩

end Regex
end BytePattern
