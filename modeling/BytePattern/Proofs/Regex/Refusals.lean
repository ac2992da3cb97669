import Mathlib.Data.List.Count
import BytePattern.Proofs.Regex.Lenient

namespace BytePattern

/-!
# Which refusal comes first

Strict settings refuse some patterns that lenient settings read, and change
nothing else.  What they refuse can be counted in bytes.  A closing parenthesis
has no counterpart if some front of the pattern closes more groups than it
opens.  It is met as the pattern is read, and so it comes before an opening
parenthesis that is never closed, which only shows at the end.

The refusals form a fixed order.  A reserved byte keeps the pattern from being
read at all.  The settings are then asked about parentheses, before anything is
known of operators and their operands.  If they have nothing to refuse, the
stages behind them cannot tell which settings were chosen.
-/

namespace Token

theorem ofByte_injective : Function.Injective ofByte :=
  Function.LeftInverse.injective byte_ofByte

theorem count_map_ofByte (side : Parenthesis) (pattern : List UInt8) :
    (pattern.map ofByte).count (parenthesis side) = pattern.count side.byte := by
  rw [← ofByte_parenthesis, List.count_map_of_injective _ _ ofByte_injective]

/-- Marks have no influence on what is missing. -/
theorem missing_marked (tokens : List Token) :
    missingOpenings (marked tokens) = missingOpenings tokens ∧
      missingClosings (marked tokens) = missingClosings tokens :=
  missing_congr (filterMap_marked rfl tokens)

end Token

/-! ## Parentheses without a counterpart, counted in bytes -/

namespace Grammar

/-- Some front of the pattern closes more groups than it opens. -/
def Overclosed (pattern : List UInt8) : Prop :=
  exists front, front <+: pattern ∧
    front.count Parenthesis.opening.byte < front.count Parenthesis.closing.byte

/-- The pattern as a whole opens more groups than it closes. -/
def Unclosed (pattern : List UInt8) : Prop :=
  pattern.count Parenthesis.closing.byte < pattern.count Parenthesis.opening.byte

theorem overclosed_iff (pattern : List UInt8) :
    Overclosed pattern <-> Token.missingOpenings (Token.marked (pattern.map Token.ofByte)) ≠ 0 := by
  rw [(Token.missing_marked _).1, Ne, Token.missingOpenings_eq_zero_iff]
  constructor
  · rintro ⟨front, initial, more⟩ covered
    have few := covered _ (initial.map Token.ofByte)
    rw [Token.count_map_ofByte, Token.count_map_ofByte] at few
    exact Nat.not_le_of_lt more few
  · intro uncovered
    by_contra contained
    apply uncovered
    intro front before
    rcases List.prefix_map_iff.1 before with ⟨own, initial, same⟩
    rw [same, Token.count_map_ofByte, Token.count_map_ofByte]
    exact Nat.le_of_not_lt fun more => contained ⟨own, initial, more⟩

theorem unclosed_iff {pattern : List UInt8}
    (opened : Token.missingOpenings (Token.marked (pattern.map Token.ofByte)) = 0) :
    Unclosed pattern <-> Token.missingClosings (Token.marked (pattern.map Token.ofByte)) ≠ 0 := by
  rw [(Token.missing_marked _).1] at opened
  rw [(Token.missing_marked _).2, Token.missingClosings, opened, Nat.zero_add,
    Token.count_map_ofByte, Token.count_map_ofByte]
  exact Nat.sub_ne_zero_iff_lt.symm

instance (pattern : List UInt8) : Decidable (Overclosed pattern) :=
  decidable_of_iff _ (overclosed_iff pattern).symm

instance (pattern : List UInt8) : Decidable (Unclosed pattern) :=
  inferInstanceAs (Decidable (_ < _))

end Grammar

namespace Regex

open Grammar (Overclosed Unclosed)

variable {pattern : String}

theorem compile_of_reserved (reserved : Operator.concat.byte ∈ bytes pattern) :
    exists front back, bytes pattern = front ++ Operator.concat.byte :: back ∧
      Operator.concat.byte ∉ front ∧ forall settings,
        compile settings pattern = .error (.refused (.reservedByte front.length)) := by
  rcases List.eq_append_cons_of_mem reserved with ⟨front, back, split, first⟩
  refine ⟨front, back, split, first, ?_⟩
  intro settings
  rw [compile_eq_map, split, Compilation.run, Token.scan_of_first first]
  rfl

/-- What the settings refuse is refused before the check has a say. -/
theorem compile_of_ofInfix_error {settings : Settings} {refusal : Refusal}
    (unreserved : Operator.concat.byte ∉ bytes pattern)
    (refused : Postorder.ofInfix settings (Token.marked ((bytes pattern).map Token.ofByte)) =
      .error refusal) :
    compile settings pattern = .error (.refused refusal) := by
  rw [compile_eq_map, Compilation.outcome_run_of_unreserved settings unreserved, refused]
  rfl

theorem compile_strict_of_overclosed (unreserved : Operator.concat.byte ∉ bytes pattern)
    (overclosed : Overclosed (bytes pattern)) :
    compile .strict pattern = .error (.refused (.unmatched .closing)) := by
  apply compile_of_ofInfix_error unreserved
  exact Postorder.ofInfix_strict_of_missingOpenings ((Grammar.overclosed_iff _).1 overclosed)

theorem compile_strict_of_unclosed (unreserved : Operator.concat.byte ∉ bytes pattern)
    (contained : ¬ Overclosed (bytes pattern)) (unclosed : Unclosed (bytes pattern)) :
    compile .strict pattern = .error (.refused (.unmatched .opening)) := by
  have opened := not_ne_iff.1 (mt (Grammar.overclosed_iff _).2 contained)
  apply compile_of_ofInfix_error unreserved
  exact Postorder.ofInfix_strict_of_missingClosings opened ((Grammar.unclosed_iff opened).1 unclosed)

theorem compile_strict_eq_lenient (unreserved : Operator.concat.byte ∉ bytes pattern)
    (contained : ¬ Overclosed (bytes pattern)) (closed : ¬ Unclosed (bytes pattern)) :
    compile .strict pattern = compile .lenient pattern := by
  have opened := not_ne_iff.1 (mt (Grammar.overclosed_iff _).2 contained)
  have ended := not_ne_iff.1 (mt (Grammar.unclosed_iff opened).2 closed)
  rw [compile_eq_map, compile_eq_map, Compilation.outcome_run_of_unreserved .strict unreserved,
    Compilation.outcome_run_of_unreserved .lenient unreserved,
    Postorder.ofInfix_eq_of_matched opened ended, Postorder.ofInfix_eq_of_matched opened ended]

/-- What strict settings accept, lenient settings accept with the same result. -/
theorem compile_lenient_of_strict {regex : Regex} (compiled : compile .strict pattern = .ok regex) :
    compile .lenient pattern = .ok regex := by
  rcases (exists_compile_iff .strict pattern regex.postorder).1 ⟨regex, compiled, rfl⟩ with
    ⟨unreserved, _, _, _⟩
  by_cases overclosed : Overclosed (bytes pattern)
  · rw [compile_strict_of_overclosed unreserved overclosed] at compiled
    contradiction
  by_cases unclosed : Unclosed (bytes pattern)
  · rw [compile_strict_of_unclosed unreserved overclosed unclosed] at compiled
    contradiction
  · exact compile_strict_eq_lenient unreserved overclosed unclosed ▸ compiled

theorem compile_lenient_ne_unmatched (side : Parenthesis) :
    compile .lenient pattern ≠ .error (.refused (.unmatched side)) := by
  intro refused
  by_cases reserved : Operator.concat.byte ∈ bytes pattern
  · rcases compile_of_reserved reserved with ⟨_, _, _, _, other⟩
    rw [other] at refused
    cases refused
  · rcases compile_lenient_cases reserved with ⟨_, other⟩ | ⟨_, _, other⟩ <;>
      rw [other] at refused <;> cases refused

/-- A reserved byte is reported first, at its first place and under any settings.
Strict settings then report a closing parenthesis without a counterpart, and
otherwise an opening one.  If there is neither, compiling ends as it does under
lenient settings, which never report a parenthesis.  Hence whatever strict
settings accept is the same regular expression under lenient ones. -/
theorem strict_adds_unmatched_only (pattern : String) :
    (Operator.concat.byte ∈ bytes pattern ->
        exists front back, bytes pattern = front ++ Operator.concat.byte :: back ∧
          Operator.concat.byte ∉ front ∧ forall settings,
            compile settings pattern = .error (.refused (.reservedByte front.length))) ∧
      (Operator.concat.byte ∉ bytes pattern ->
        (Overclosed (bytes pattern) ->
          compile .strict pattern = .error (.refused (.unmatched .closing))) ∧
        (¬ Overclosed (bytes pattern) -> Unclosed (bytes pattern) ->
          compile .strict pattern = .error (.refused (.unmatched .opening))) ∧
        (¬ Overclosed (bytes pattern) -> ¬ Unclosed (bytes pattern) ->
          compile .strict pattern = compile .lenient pattern)) ∧
      (forall side, compile .lenient pattern ≠ .error (.refused (.unmatched side))) ∧
      forall regex, compile .strict pattern = .ok regex -> compile .lenient pattern = .ok regex := by
  refine ⟨compile_of_reserved, ?_, compile_lenient_ne_unmatched, fun _ => compile_lenient_of_strict⟩
  intro unreserved
  exact ⟨compile_strict_of_overclosed unreserved, compile_strict_of_unclosed unreserved,
    compile_strict_eq_lenient unreserved⟩

/-- An operand is missing in all of these but the last, and only where nothing else
is wrong is it reported. -/
theorem strict_adds_unmatched_only_ahead_of_operand :
    (forall settings, compile settings ")|.." = .error (.refused (.reservedByte 2))) ∧
      Operator.concat.byte ∉ bytes "(|a))(" ∧ Overclosed (bytes "(|a))(") ∧
      compile .strict "(|a))(" = .error (.refused (.unmatched .closing)) ∧
      Operator.concat.byte ∉ bytes "((|a)" ∧ ¬ Overclosed (bytes "((|a)") ∧ Unclosed (bytes "((|a)") ∧
      compile .strict "((|a)" = .error (.refused (.unmatched .opening)) ∧
      Operator.concat.byte ∉ bytes "(|a)" ∧ ¬ Overclosed (bytes "(|a)") ∧ ¬ Unclosed (bytes "(|a)") ∧
      compile .strict "(|a)" = compile .lenient "(|a)" ∧
      exists regex, compile .strict "(b|a)" = .ok regex ∧ compile .lenient "(b|a)" = .ok regex := by
  have free : forall pattern, pattern ∈ ["(|a))(", "((|a)", "(|a)"] ->
      Operator.concat.byte ∉ bytes pattern := by decide
  have overclosed : Overclosed (bytes "(|a))(") := by decide
  have contained : ¬ Overclosed (bytes "((|a)") := by decide
  have unclosed : Unclosed (bytes "((|a)") := by decide
  have matched : ¬ Overclosed (bytes "(|a)") ∧ ¬ Unclosed (bytes "(|a)") := by decide
  have first := (strict_adds_unmatched_only "(|a))(").2.1 (free _ (by decide))
  have second := (strict_adds_unmatched_only "((|a)").2.1 (free _ (by decide))
  have third := (strict_adds_unmatched_only "(|a)").2.1 (free _ (by decide))
  refine ⟨?_, free _ (by decide), overclosed, first.1 overclosed, free _ (by decide), contained, unclosed,
    second.2.1 contained unclosed, free _ (by decide), matched.1, matched.2,
    third.2.2 matched.1 matched.2, ?_⟩
  · rcases (strict_adds_unmatched_only ")|..").1 (by decide) with ⟨front, back, _, _, refused⟩
    have evaluated : compile .lenient ")|.." = .error (.refused (.reservedByte 2)) := rfl
    have same := Failure.refused.inj (Except.error.inj ((refused .lenient).symm.trans evaluated))
    rw [Refusal.reservedByte.inj same] at refused
    exact refused
  · have compiled : exists regex, compile .strict "(b|a)" = .ok regex := ⟨_, rfl⟩
    rcases compiled with ⟨regex, compiled⟩
    exact ⟨regex, compiled, (strict_adds_unmatched_only "(b|a)").2.2.2 regex compiled⟩

end Regex
end BytePattern
