import BytePattern.Proofs.Regex.Refusals
import BytePattern.Proofs.Regex.Rendering

namespace BytePattern

/-!
# The notices of a compilation

Lenient settings drop a parenthesis without a word to the author, and the notices
are the one place where it can still be found.  A closing one is noticed when it
is met, between operators that it releases, and an opening one in the end, among
operators that are released as well.  None of this shows in the notices.  What
they tell can be counted in bytes of the pattern, and the closing ones come first.
How a pattern is quoted in them makes no difference to this.

Besides, a compilation leaves at most one notice for each thing that it did: that
the marks were written, if the pattern could be read, and how it ended.
-/

/-! ## Dropped parentheses, counted in bytes -/

namespace Grammar

/-- How many closing parentheses of a pattern have no counterpart, namely the
largest excess of closing over opening ones in any front of it. -/
def unmatchedClosings (pattern : List UInt8) : Nat :=
  (pattern.inits.map fun front =>
    front.count Parenthesis.closing.byte - front.count Parenthesis.opening.byte).foldr max 0

/-- How many opening parentheses have none, if each closing one that is matched
is the counterpart of another. -/
def unclosedOpenings (pattern : List UInt8) : Nat :=
  unmatchedClosings pattern + pattern.count Parenthesis.opening.byte -
    pattern.count Parenthesis.closing.byte

theorem missingOpenings_eq (pattern : List UInt8) :
    Token.missingOpenings (Token.marked (pattern.map Token.ofByte)) = unmatchedClosings pattern := by
  rw [(Token.missing_marked _).1, Token.missingOpenings, unmatchedClosings, List.map_inits, List.map_map]
  congr 2
  funext front
  exact congrArg₂ (· - ·) (Token.count_map_ofByte .closing front) (Token.count_map_ofByte .opening front)

theorem missingClosings_eq (pattern : List UInt8) :
    Token.missingClosings (Token.marked (pattern.map Token.ofByte)) = unclosedOpenings pattern := by
  have openings := missingOpenings_eq pattern
  rw [(Token.missing_marked _).1] at openings
  rw [(Token.missing_marked _).2, Token.missingClosings, openings, Token.count_map_ofByte,
    Token.count_map_ofByte, unclosedOpenings]

end Grammar

/-! ## What the stages notice -/

/-- Settings refuse an arrangement only if they are strict, and a strict one that
they permit has nothing dropped. -/
theorem Postorder.Arrangement.under_cases (settings : Settings) (arrangement : Arrangement) :
    (settings.strictParentheses = true ∧ exists refusal, arrangement.under settings = .error refusal) ∨
      (settings.strictParentheses = true -> arrangement.dropped = []) ∧
        arrangement.under settings = .ok arrangement := by
  rcases arrangement with ⟨order, _ | ⟨side, dropped⟩⟩ <;>
    cases strict : settings.strictParentheses <;> simp [under, strict]

namespace Compilation

/-- The parentheses that a compilation under these settings drops. -/
def droppedUnder (settings : Settings) (pattern : List UInt8) : List Parenthesis :=
  if settings.strictParentheses then []
  else
    List.replicate (Grammar.unmatchedClosings pattern) .closing ++
      List.replicate (Grammar.unclosedOpenings pattern) .opening

theorem dropped_arranged (pattern : List UInt8) :
    (arranged pattern).dropped =
      List.replicate (Grammar.unmatchedClosings pattern) .closing ++
        List.replicate (Grammar.unclosedOpenings pattern) .opening := by
  rw [arranged, Postorder.dropped_arrange_eq, Grammar.missingOpenings_eq, Grammar.missingClosings_eq]

/-- Before the outcome, a pattern that can be read leaves one notice for its marks
and one for each parenthesis that is dropped.  How far it comes does not matter. -/
theorem passing_run_of_unreserved (settings : Settings) {pattern : List UInt8}
    (unreserved : Operator.concat.byte ∉ pattern) :
    (run settings pattern).passing =
      .marked (pattern.map Token.ofByte) (Token.marked (pattern.map Token.ofByte)) ::
        (droppedUnder settings pattern).map fun side =>
          .dropped side (Token.marked (pattern.map Token.ofByte)) := by
  simp only [run, Token.scan_of_not_mem unreserved]
  rcases Postorder.Arrangement.under_cases settings (arranged pattern) with
    ⟨strict, refusal, refused⟩ | ⟨nothing, permitted⟩
  · rw [arranged] at refused
    simp only [refused, passing, droppedUnder, strict, if_true, List.map_nil]
  · have same : droppedUnder settings pattern = (arranged pattern).dropped := by
      unfold droppedUnder
      split
      · next strict => exact (nothing strict).symm
      · exact (dropped_arranged pattern).symm
    rw [same]
    rw [arranged] at permitted ⊢
    simp only [permitted]
    cases Postorder.check (Postorder.arrange (Token.marked (pattern.map Token.ofByte))).postorder with
    | error fault => rfl
    | ok _ =>
        cases Recognizer.assemble
          (Postorder.arrange (Token.marked (pattern.map Token.ofByte))).postorder with
        | error fault => rfl
        | ok recognizer => rfl

theorem passing_run_of_reserved (settings : Settings) {pattern : List UInt8}
    (reserved : Operator.concat.byte ∈ pattern) : (run settings pattern).passing = [] := by
  rcases Token.scan_cases pattern with ⟨absent, _⟩ | ⟨_, position, scanned⟩
  · exact absurd reserved absent
  · simp only [run, scanned, passing]

/-- What the notices of dropped parentheses say, with the count of each kind. -/
theorem map_lineWith_droppedUnder (quote : String -> String) (settings : Settings)
    (pattern : List UInt8) (tokens : List Token) :
    (droppedUnder settings pattern).map (Notice.lineWith quote ∘ fun side => .dropped side tokens) =
      if settings.strictParentheses then []
      else
        List.replicate (Grammar.unmatchedClosings pattern)
            ("TRACE ignoring unmatched ')' in " ++ Token.text tokens) ++
          List.replicate (Grammar.unclosedOpenings pattern)
            ("TRACE ignoring unclosed '(' in " ++ Token.text tokens) := by
  unfold droppedUnder
  split
  · exact List.map_nil
  · rw [List.map_append, List.map_replicate, List.map_replicate]
    rfl

end Compilation

namespace Regex

/-- The lines that compiling a pattern leaves behind. -/
def lines (quote : String -> String) (settings : Settings) (pattern : String) : List String :=
  ((compilation settings pattern).notices pattern).map (Notice.lineWith quote)

/-- The last line, which says how compiling has ended. -/
inductive Concludes (quote : String -> String) (settings : Settings) (pattern : String)
    (line : String) : Prop where
  | compiled {regex : Regex} (made : compile settings pattern = .ok regex)
      (told : line = "DEBUG compiled " ++ quote pattern ++ " => " ++
        Token.text regex.postorder ++ " (" ++ toString regex.size ++ " states)")
  | refused {refusal : Refusal} (failed : compile settings pattern = .error (.refused refusal))
      (told : line = "DEBUG failed to compile " ++ quote pattern ++ ": " ++ refusal.message)

/-- Whatever the stages did, there is one last line, and it is the line of the
outcome. -/
theorem exists_closing (quote : String -> String) (settings : Settings) (pattern : String) :
    exists last, (compilation settings pattern).closing pattern = [last] ∧
      Concludes quote settings pattern (last.lineWith quote) := by
  have outcome := compile_eq_map settings pattern
  rcases compile_cases settings pattern with
    ⟨regex, made⟩ | ⟨position, failed⟩ | ⟨side, failed⟩ | ⟨op, position, failed⟩
  · rcases compile_eq_ok_iff.1 made with ⟨_, completed⟩
    refine ⟨.compiled pattern regex.postorder regex.size, ?_, .compiled made rfl⟩
    rw [Compilation.closing, compilation, completed]
    rfl
  all_goals
    refine ⟨.refused pattern _, ?_, .refused failed rfl⟩
    rw [failed] at outcome
    rw [Compilation.closing, compilation]
    cases ended : (Compilation.run settings (bytes pattern)).outcome with
    | ok made => rw [ended] at outcome; contradiction
    | error failure =>
        rw [ended] at outcome
        cases outcome
        rfl

/-- A pattern with a reserved byte leaves a single line, which refuses it.  Any
other leaves one line for its marks and then, under lenient settings, one for
each closing parenthesis that is dropped and one for each opening parenthesis
that is.  The line of the outcome is the last one, and no other line depends on how
patterns are quoted. -/
theorem lines_account_for_dropped (quote : String -> String) (settings : Settings) (pattern : String) :
    (Operator.concat.byte ∈ bytes pattern ->
      exists refusal, compile settings pattern = .error (.refused refusal) ∧
        lines quote settings pattern =
          ["DEBUG failed to compile " ++ quote pattern ++ ": " ++ refusal.message]) ∧
    (Operator.concat.byte ∉ bytes pattern ->
      exists tokens last, Token.scan (bytes pattern) = .ok tokens ∧
        Concludes quote settings pattern last ∧
        lines quote settings pattern =
          ["TRACE normalized " ++ Token.text tokens ++ " into " ++ Token.text (Token.marked tokens)] ++
            (if settings.strictParentheses then []
              else
                List.replicate (Grammar.unmatchedClosings (bytes pattern))
                    ("TRACE ignoring unmatched ')' in " ++ Token.text (Token.marked tokens)) ++
                  List.replicate (Grammar.unclosedOpenings (bytes pattern))
                    ("TRACE ignoring unclosed '(' in " ++ Token.text (Token.marked tokens))) ++
            [last]) := by
  rcases exists_closing quote settings pattern with ⟨last, closing, concludes⟩
  constructor
  · intro reserved
    have silent := Compilation.passing_run_of_reserved settings reserved
    rcases compile_of_reserved reserved with ⟨front, _, _, _, refused⟩
    refine ⟨_, refused settings, ?_⟩
    cases concludes with
    | compiled made _ =>
        rw [refused settings] at made
        contradiction
    | refused failed told =>
        rw [refused settings] at failed
        cases failed
        rw [lines, Compilation.notices, closing, compilation, silent, ← told]
        rfl
  · intro unreserved
    refine ⟨_, last.lineWith quote, Token.scan_of_not_mem unreserved, concludes, ?_⟩
    rw [lines, Compilation.notices, closing, compilation,
      Compilation.passing_run_of_unreserved settings unreserved, List.map_append, List.map_cons,
      List.map_map, Compilation.map_lineWith_droppedUnder]
    rfl

/-- Everything before the closing parenthesis is a group, and two more groups last
until the end.  A reserved byte leaves none of this to be noticed. -/
theorem lines_account_for_dropped_on_both_sides :
    Operator.concat.byte ∉ bytes "a)b((c" ∧
      lines Text.quote .lenient "a)b((c" =
        ["TRACE normalized a)b((c into a).b.((c", "TRACE ignoring unmatched ')' in a).b.((c",
          "TRACE ignoring unclosed '(' in a).b.((c", "TRACE ignoring unclosed '(' in a).b.((c",
          "DEBUG compiled \x22a)b((c\x22 => ab.c. (6 states)"] ∧
      Operator.concat.byte ∈ bytes ")(.." ∧
      lines Text.quote .lenient ")(.." =
        ["DEBUG failed to compile \x22)(..\x22: " ++
          "byte 0x2e at position 2 is reserved and cannot be a literal"] := by
  have unreserved : Operator.concat.byte ∉ bytes "a)b((c" := by decide
  have reserved : Operator.concat.byte ∈ bytes ")(.." := by decide
  refine ⟨unreserved, ?_, reserved, ?_⟩
  · rcases (lines_account_for_dropped Text.quote .lenient "a)b((c").2 unreserved with
      ⟨tokens, last, scanned, concludes, told⟩
    have compiled : exists regex, compile .lenient "a)b((c" = .ok regex ∧
        Token.text regex.postorder = "ab.c." ∧ regex.size = 6 := ⟨_, rfl, by decide, rfl⟩
    rcases compiled with ⟨regex, compiled, postorder, size⟩
    cases scanned
    cases concludes with
    | refused failed _ =>
        rw [compiled] at failed
        contradiction
    | compiled made same =>
        rw [compiled] at made
        cases made
        rw [told, same, postorder, size]
        decide
  · rcases (lines_account_for_dropped Text.quote .lenient ")(..").1 reserved with ⟨refusal, refused, told⟩
    have position : compile .lenient ")(.." = .error (.refused (.reservedByte 2)) := rfl
    rw [position] at refused
    cases refused
    rw [told]
    decide

end Regex
end BytePattern
