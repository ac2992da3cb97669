import BytePattern.Proofs.Regex.Outcome

namespace BytePattern

/-!
# Lenient parentheses are implicit ones

Lenient settings never ask where a parenthesis is missing.  The results below say
what they assume instead: as many openings before the pattern as it lacks, and
then as many closings behind it.  A closing parenthesis without a counterpart
thus closes a group that began with the pattern, and an opening one begins a
group that lasts until the end.

The assumed parentheses can be typed.  The pattern is then balanced, strict
settings have nothing to refuse, and all stages behind the arrangement receive
the same tokens.  The two compilations hence end in the same way, and differ in
nothing but the text of the pattern.
-/

namespace Regex

theorem bytes_append (front back : String) : bytes (front ++ back) = bytes front ++ bytes back := by
  rw [bytes, String.toUTF8, String.toByteArray_append, ByteArray.toList_data_append]
  rfl

theorem bytes_ofList (characters : List Char) :
    bytes (String.ofList characters) = characters.flatMap String.utf8EncodeChar := by
  simp [bytes, String.toUTF8, List.utf8Encode]

/-- A character that is encoded in one byte, repeated. -/
theorem bytes_replicate {character : Char} {byte : UInt8}
    (single : String.utf8EncodeChar character = [byte]) (count : Nat) :
    bytes (String.ofList (List.replicate count character)) = List.replicate count byte := by
  rw [bytes_ofList, List.flatMap_replicate, single, List.flatten_replicate_singleton]

/-- The pattern with its missing parentheses. -/
def balanced (pattern : String) : String :=
  let tokens := (bytes pattern).map Token.ofByte
  String.ofList (List.replicate (Token.missingOpenings tokens) '(') ++ pattern ++
    String.ofList (List.replicate (Token.missingClosings tokens) ')')

theorem bytes_balanced (pattern : String) :
    bytes (balanced pattern) =
      List.replicate (Token.missingOpenings ((bytes pattern).map Token.ofByte))
          Parenthesis.opening.byte ++ bytes pattern ++
        List.replicate (Token.missingClosings ((bytes pattern).map Token.ofByte))
          Parenthesis.closing.byte := by
  have opening : String.utf8EncodeChar '(' = [Parenthesis.opening.byte] := rfl
  have closing : String.utf8EncodeChar ')' = [Parenthesis.closing.byte] := rfl
  rw [balanced, bytes_append, bytes_append, bytes_replicate opening, bytes_replicate closing]

theorem map_ofByte_bytes_balanced (pattern : String) :
    (bytes (balanced pattern)).map Token.ofByte = Token.balanced ((bytes pattern).map Token.ofByte) := by
  rw [bytes_balanced, List.map_append, List.map_append, List.map_replicate, List.map_replicate,
    Token.ofByte_parenthesis, Token.ofByte_parenthesis]
  rfl

theorem unreserved_balanced {pattern : String} (unreserved : Operator.concat.byte ∉ bytes pattern) :
    Operator.concat.byte ∉ bytes (balanced pattern) := by
  have apart : forall side : Parenthesis, Operator.concat.byte ≠ side.byte := by
    intro side
    cases side <;> decide
  rw [bytes_balanced, List.mem_append, List.mem_append, List.mem_replicate, List.mem_replicate]
  rintro ((⟨_, same⟩ | member) | ⟨_, same⟩)
  · exact apart .opening same
  · exact unreserved member
  · exact apart .closing same

/-- Two compilations with the same outcome differ in the text of the pattern only. -/
theorem compile_eq_map_of_outcome {settings others : Settings} {pattern other : String}
    (same : (compilation settings pattern).outcome = (compilation others other).outcome) :
    compile settings pattern =
      (compile others other).map fun regex => { regex with pattern := pattern } := by
  rw [compilation, compilation] at same
  rw [compile_eq_map, compile_eq_map, same]
  cases (Compilation.run others (bytes other)).outcome with
  | error failure => rfl
  | ok made => rfl

/-- Typing the missing parentheses is what lenient settings do without them. -/
theorem compile_strict_balanced {pattern : String}
    (unreserved : Operator.concat.byte ∉ bytes pattern) :
    compile .strict (balanced pattern) =
      (compile .lenient pattern).map fun regex => { regex with pattern := balanced pattern } := by
  apply compile_eq_map_of_outcome
  rw [compilation, compilation,
    Compilation.outcome_run_of_unreserved .strict (unreserved_balanced unreserved),
    Compilation.outcome_run_of_unreserved .lenient unreserved, map_ofByte_bytes_balanced,
    ← Token.balanced_marked, Postorder.ofInfix_balanced, Postorder.ofInfix_lenient]

/-- Parentheses at both ends do not matter to lenient settings.  Those that are
missing make a list acceptable to strict settings, with the same postorder, and
make a pattern compile to the same automaton or fail for the same reason. -/
theorem lenient_eq_strict_balanced :
    (forall (tokens : List Token) (openings closings : Nat),
        Postorder.ofInfix .lenient
            (List.replicate openings (.parenthesis .opening) ++ tokens ++
              List.replicate closings (.parenthesis .closing)) =
          Postorder.ofInfix .lenient tokens) ∧
      (forall tokens : List Token, exists postorder,
        Postorder.ofInfix .strict (Token.balanced tokens) = .ok postorder ∧
          Postorder.ofInfix .lenient tokens = .ok postorder) ∧
      forall pattern : String, Operator.concat.byte ∉ bytes pattern ->
        compile .strict (balanced pattern) =
          (compile .lenient pattern).map fun regex => { regex with pattern := balanced pattern } := by
  refine ⟨?_, ?_, ?_⟩
  · intro tokens openings closings
    rw [Postorder.ofInfix_lenient, Postorder.ofInfix_lenient, Postorder.postorder_arrange_enclosed]
  · intro tokens
    exact ⟨_, Postorder.ofInfix_balanced .strict tokens, Postorder.ofInfix_lenient tokens⟩
  · intro pattern unreserved
    exact compile_strict_balanced unreserved

/-- One opening and one closing are missing.  The typed ones keep the choice
outside the group that ends with the pattern. -/
theorem lenient_eq_strict_balanced_of_each_kind :
    Operator.concat.byte ∉ bytes "a)b|(c" ∧ balanced "a)b|(c" = "(a)b|(c)" ∧
      (exists regex, compile .lenient "a)b|(c" = .ok regex) ∧
      compile .strict "(a)b|(c)" =
        (compile .lenient "a)b|(c").map fun regex => { regex with pattern := "(a)b|(c)" } := by
  have unreserved : Operator.concat.byte ∉ bytes "a)b|(c" := by decide
  have text : balanced "a)b|(c" = "(a)b|(c)" := by decide
  have same := lenient_eq_strict_balanced.2.2 "a)b|(c" unreserved
  rw [text] at same
  exact ⟨unreserved, text, ⟨_, rfl⟩, same⟩

end Regex
end BytePattern
