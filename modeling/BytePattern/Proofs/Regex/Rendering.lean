import BytePattern.Proofs.Regex.Outcome

namespace BytePattern

/-!
# What a postorder shows is what it is

A token list is shown with one character for each token, and a token by its
byte.  A literal with the byte of an operator would look like that operator, so
the text of a list put together by hand may be read in more than one way.

No stage of compilation makes such a list.  Every token of a pattern is the one
that its byte stands for, and so are the marks, whose byte no pattern may hold.
The stages behind the scan only add marks, reorder tokens and leave some out.
The text of a postorder hence gives back the postorder, and with it everything
that was made from it.  Neither the pattern nor the settings have a say in this.
-/

namespace Token

/-- The token is the one that its byte stands for. -/
def Legible (token : Token) : Prop :=
  ofByte token.byte = token

theorem legible_ofByte (byte : UInt8) : (ofByte byte).Legible :=
  congrArg ofByte (byte_ofByte byte)

theorem legible_operator (op : Operator) : (operator op).Legible := by
  cases op <;> rfl

theorem Legible.eq_of_char_eq {first second : Token} (legible : first.Legible)
    (other : second.Legible) (same : first.char = second.char) : first = second := by
  rw [Legible, byte_eq_of_char_eq same] at legible
  exact legible.symm.trans other

/-- Legible lists with the same text are the same list. -/
theorem eq_of_text_eq {first second : List Token} (legible : forall token, token ∈ first -> token.Legible)
    (others : forall token, token ∈ second -> token.Legible) (same : text first = text second) :
    first = second := by
  have shown : first.map char = second.map char := String.ofList_injective same
  induction first generalizing second with
  | nil => exact (List.map_eq_nil_iff.1 shown.symm).symm
  | cons token first ih =>
      cases second with
      | nil => contradiction
      | cons other second =>
          rcases List.forall_mem_cons.1 legible with ⟨own, later⟩
          rcases List.forall_mem_cons.1 others with ⟨otherOwn, otherLater⟩
          rcases List.cons.inj shown with ⟨head, tail⟩
          rw [own.eq_of_char_eq otherOwn head, ih later otherLater (congrArg String.ofList tail) tail]

end Token

theorem Postorder.Arrangement.eq_of_under {settings : Settings} {arrangement allowed : Arrangement}
    (permitted : arrangement.under settings = .ok allowed) : allowed = arrangement := by
  unfold under at permitted
  split at permitted
  · contradiction
  · exact (Except.ok.inj permitted).symm

namespace Compilation

/-- The token lists that were made on the way. -/
def emitted (compilation : Compilation) : List (List Token) :=
  compilation.tokens?.toList ++ compilation.marked?.toList ++
    (compilation.arrangement?.map Postorder.Arrangement.postorder).toList

/-- However far a compilation came, these are the lists it made, in this order. -/
theorem emitted_run_begins (settings : Settings) (pattern : List UInt8) :
    (run settings pattern).emitted <+:
      [pattern.map Token.ofByte, Token.marked (pattern.map Token.ofByte), (arranged pattern).postorder] := by
  rcases Token.scan_cases pattern with ⟨_, scanned⟩ | ⟨_, position, scanned⟩
  · simp only [run, scanned]
    cases permitted : (Postorder.arrange (Token.marked (pattern.map Token.ofByte))).under settings with
    | error refusal => exact ⟨[(arranged pattern).postorder], rfl⟩
    | ok arrangement =>
        rw [arranged, ← Postorder.Arrangement.eq_of_under permitted]
        dsimp only
        cases Postorder.check arrangement.postorder with
        | error fault => exact List.prefix_rfl
        | ok _ =>
            cases Recognizer.assemble arrangement.postorder with
            | error fault => exact List.prefix_rfl
            | ok recognizer => exact List.prefix_rfl
  · simp only [run, scanned]
    exact List.nil_prefix

theorem mem_emitted_of_outcome {compilation : Compilation} {postorder : List Token}
    {recognizer : Recognizer} (completed : compilation.outcome = .ok (postorder, recognizer)) :
    postorder ∈ compilation.emitted := by
  cases compilation with
  | completed tokens marked arrangement own =>
      cases completed
      exact List.mem_append_right _ List.mem_cons_self
  | _ => contradiction

theorem legible_of_emitted {settings : Settings} {pattern : List UInt8} {tokens : List Token}
    (made : tokens ∈ (run settings pattern).emitted) :
    forall token, token ∈ tokens -> token.Legible := by
  have scanned : forall token, token ∈ pattern.map Token.ofByte -> token.Legible := by
    intro token member
    rcases List.mem_map.1 member with ⟨byte, _, same⟩
    exact same ▸ Token.legible_ofByte byte
  have marked : forall token, token ∈ Token.marked (pattern.map Token.ofByte) -> token.Legible := by
    intro token member
    rcases Token.mem_or_eq_of_mem_marked member with typed | mark
    · exact scanned token typed
    · exact mark ▸ Token.legible_operator .concat
  have listed := (emitted_run_begins settings pattern).subset made
  rcases List.mem_cons.1 listed with first | later
  · exact first ▸ scanned
  rcases List.mem_cons.1 later with second | last
  · exact second ▸ marked
  · rw [List.mem_singleton.1 last]
    intro token member
    have moved := (Postorder.perm_arrange _).mem_iff.1 member
    exact marked token (List.mem_of_mem_filter moved)

end Compilation

namespace Regex

variable {settings : Settings} {pattern : String} {regex : Regex}

theorem display_eq (regex : Regex) :
    regex.display = regex.pattern ++ (" => " ++ Token.text regex.postorder ++ "\n" ++
      "start(" ++ toString regex.recognizer.root.entry ++
      ") out(" ++ toString regex.recognizer.root.exit ++ ")\n" ++
      regex.recognizer.automaton.table) := by
  simp only [display, String.append_assoc]

/-- The automaton is determined by the postorder, whatever pattern it came from. -/
theorem recognizer_eq_of_postorder_eq {settings others : Settings} {pattern other : String}
    {first second : Regex} (compiled : compile settings pattern = .ok first)
    (compiledOther : compile others other = .ok second) (same : first.postorder = second.postorder) :
    first.recognizer = second.recognizer := by
  have assembled := assemble_of_compile compiled
  rw [same, assemble_of_compile compiledOther] at assembled
  exact (Except.ok.inj assembled).symm

/-- No two tokens that compiling ever makes are shown by the same character.  If the
postorders of two regular expressions are shown by the same text, they are therefore
the same, and the two differ in nothing but the pattern that they repeat. -/
theorem regex_determined_by_text :
    (forall (settings others : Settings) (pattern other : String) (first second : List Token),
        first ∈ (compilation settings pattern).emitted -> second ∈ (compilation others other).emitted ->
          forall one two, one ∈ first -> two ∈ second -> one.char = two.char -> one = two) ∧
      forall (settings others : Settings) (pattern other : String) (first second : Regex),
        compile settings pattern = .ok first -> compile others other = .ok second ->
          Token.text first.postorder = Token.text second.postorder ->
            first.postorder = second.postorder ∧ first.size = second.size ∧
              first.recognizer.root = second.recognizer.root ∧
              first.recognizer.automaton.table = second.recognizer.automaton.table ∧
              (forall input, first.isMatch input = second.isMatch input) ∧
              exists shown, first.display = pattern ++ shown ∧ second.display = other ++ shown := by
  constructor
  · intro settings others pattern other first second made madeOther one two member memberOther same
    have legible := Compilation.legible_of_emitted made one member
    exact legible.eq_of_char_eq (Compilation.legible_of_emitted madeOther two memberOther) same
  · intro settings others pattern other first second compiled compiledOther shown
    rcases compile_eq_ok_iff.1 compiled with ⟨text, outcome⟩
    rcases compile_eq_ok_iff.1 compiledOther with ⟨otherText, otherOutcome⟩
    have order : first.postorder = second.postorder := by
      apply Token.eq_of_text_eq ?_ ?_ shown
      · exact Compilation.legible_of_emitted (Compilation.mem_emitted_of_outcome outcome)
      · exact Compilation.legible_of_emitted (Compilation.mem_emitted_of_outcome otherOutcome)
    have recognizers := recognizer_eq_of_postorder_eq compiled compiledOther order
    refine ⟨order, ?_, ?_, ?_, ?_, ?_⟩
    · rw [size, size, recognizers]
    · rw [recognizers]
    · rw [recognizers]
    · intro input
      rw [isMatch, isMatch, recognizers]
    · refine ⟨_, text ▸ display_eq first, ?_⟩
      rw [← otherText, display_eq second, order, recognizers]

/-- A closing parenthesis that lenient settings drop leaves no trace in the text. -/
theorem regex_determined_by_text_of_dropped_closing :
    exists first second, compile .lenient "a)b" = .ok first ∧ compile .strict "ab" = .ok second ∧
      Token.text first.postorder = Token.text second.postorder ∧
      first.postorder = second.postorder ∧ (forall input, first.isMatch input = second.isMatch input) ∧
      (exists shown, first.display = "a)b" ++ shown ∧ second.display = "ab" ++ shown) ∧
      [.literal 0x61, .parenthesis .closing, .literal 0x62] ∈ (compilation .lenient "a)b").emitted ∧
      second.postorder ∈ (compilation .strict "ab").emitted ∧
      forall two, two ∈ second.postorder -> Token.char (.literal 0x61) = two.char ->
        Token.literal 0x61 = two := by
  have compiles : exists first second, compile .lenient "a)b" = .ok first ∧
      compile .strict "ab" = .ok second ∧ Token.text first.postorder = Token.text second.postorder :=
    ⟨_, _, rfl, rfl, rfl⟩
  rcases compiles with ⟨first, second, compiled, compiledOther, shown⟩
  rcases regex_determined_by_text with ⟨apart, determined⟩
  rcases determined _ _ _ _ _ _ compiled compiledOther shown with ⟨order, _, _, _, answers, displays⟩
  have typed : [.literal 0x61, .parenthesis .closing, .literal 0x62] ∈
      (compilation .lenient "a)b").emitted := List.mem_cons_self
  have arranged := Compilation.mem_emitted_of_outcome (compile_eq_ok_iff.1 compiledOther).2
  refine ⟨first, second, compiled, compiledOther, shown, order, answers, displays, typed, arranged, ?_⟩
  intro two member
  exact apart _ _ _ _ _ _ typed arranged _ two List.mem_cons_self member

end Regex
end BytePattern
