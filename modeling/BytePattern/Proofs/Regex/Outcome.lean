import BytePattern.Proofs.Automaton.Agreement
import BytePattern.Proofs.Grammar.Nesting
import BytePattern.Proofs.Postorder.Counting
import BytePattern.Regex

namespace BytePattern

/-!
# When a pattern compiles

A pattern compiles if it holds no reserved byte, if the settings do not object
to what was dropped, and if its arrangement passes the check.  The stages behind
the check cannot fail, so these three conditions are all there is to show of a
pattern, and all that is known of one that has compiled.

Each condition has a refusal of its own, and a pattern that does not compile is
refused for one of them.  Of an arrangement the check only ever says that an
operator lacks an operand.
-/

namespace Compilation

/-- The arrangement of a pattern that holds no reserved byte. -/
def arranged (pattern : List UInt8) : Postorder.Arrangement :=
  Postorder.arrange (Token.marked (pattern.map Token.ofByte))

/-- What the stages behind the arrangement make of a postorder. -/
def conclude (tokens : List Token) : Except Failure (List Token × Recognizer) :=
  match Postorder.check tokens with
  | .error fault => .error fault.inCheck
  | .ok () =>
      match Recognizer.assemble tokens with
      | .error fault => .error (.defect (fault.inAssembly tokens))
      | .ok recognizer => .ok (tokens, recognizer)

/-- A pattern that can be read has an outcome that depends on its postorder, or
else on what the settings refuse. -/
theorem outcome_run_of_unreserved (settings : Settings) {pattern : List UInt8}
    (unreserved : Operator.concat.byte ∉ pattern) :
    (run settings pattern).outcome =
      match Postorder.ofInfix settings (Token.marked (pattern.map Token.ofByte)) with
      | .error refusal => .error (.refused refusal)
      | .ok postorder => conclude postorder := by
  have scanned := Token.scan_of_not_mem unreserved
  simp only [run, scanned, Postorder.ofInfix]
  cases (Postorder.arrange (Token.marked (pattern.map Token.ofByte))).under settings with
  | error refusal => rfl
  | ok arrangement =>
      simp only [Except.map, conclude]
      cases Postorder.check arrangement.postorder with
      | error fault => rfl
      | ok _ =>
          cases Recognizer.assemble arrangement.postorder with
          | error fault => rfl
          | ok recognizer => rfl

/-- A pattern with a reserved byte is refused for it. -/
theorem outcome_run_of_reserved (settings : Settings) {pattern : List UInt8}
    (reserved : Operator.concat.byte ∈ pattern) :
    exists position, (run settings pattern).outcome = .error (.refused (.reservedByte position)) := by
  rcases Token.scan_cases pattern with ⟨absent, _⟩ | ⟨_, position, scanned⟩
  · exact absurd reserved absent
  · refine ⟨position, ?_⟩
    simp only [run, scanned]
    rfl

theorem conclude_eq_ok_iff {tokens order : List Token} {recognizer : Recognizer} :
    conclude tokens = .ok (order, recognizer) <->
      order = tokens ∧ Postorder.check tokens = .ok () ∧
        Recognizer.assemble tokens = .ok recognizer := by
  unfold conclude
  cases Postorder.check tokens with
  | error fault => simp
  | ok _ =>
      cases Recognizer.assemble tokens with
      | error fault => simp
      | ok made => simp [Prod.ext_iff, eq_comm]

/-- What is known of a compilation that went through. -/
theorem outcome_run_eq_ok_iff (settings : Settings) (pattern : List UInt8) (tokens : List Token)
    (recognizer : Recognizer) :
    (run settings pattern).outcome = .ok (tokens, recognizer) <->
      Operator.concat.byte ∉ pattern ∧
        (settings.strictParentheses = true -> (arranged pattern).dropped = []) ∧
        tokens = (arranged pattern).postorder ∧ Postorder.check tokens = .ok () ∧
        Recognizer.assemble tokens = .ok recognizer := by
  by_cases reserved : Operator.concat.byte ∈ pattern
  · rcases outcome_run_of_reserved settings reserved with ⟨position, refused⟩
    rw [refused]
    exact iff_of_false nofun fun whole => whole.1 reserved
  rw [outcome_run_of_unreserved settings reserved]
  constructor
  · intro succeeded
    cases allowed : Postorder.ofInfix settings (Token.marked (pattern.map Token.ofByte)) with
    | error refusal =>
        rw [allowed] at succeeded
        contradiction
    | ok postorder =>
        rw [allowed] at succeeded
        rcases Postorder.ofInfix_eq_ok_iff.1 allowed with ⟨permitted, order⟩
        rcases conclude_eq_ok_iff.1 succeeded with ⟨same, passed, assembled⟩
        subst same
        exact ⟨reserved, permitted, order, passed, assembled⟩
  · rintro ⟨_, permitted, order, passed, assembled⟩
    rw [Postorder.ofInfix_eq_ok_iff.2 ⟨permitted, order⟩]
    exact conclude_eq_ok_iff.2 ⟨rfl, passed, assembled⟩

/-- Of all faults, an arrangement only ever shows that an operator lacks an operand. -/
theorem conclude_arranged_cases (pattern : List UInt8) :
    (exists made, conclude (arranged pattern).postorder = .ok made) ∨
      exists op position,
        conclude (arranged pattern).postorder = .error (.refused (.missingOperand op position)) := by
  cases checked : Postorder.check (arranged pattern).postorder with
  | ok _ =>
      rcases Recognizer.check_eq_ok_iff_assemble.1 checked with ⟨recognizer, assembled⟩
      exact Or.inl ⟨_, conclude_eq_ok_iff.2 ⟨rfl, checked, assembled⟩⟩
  | error fault =>
      cases fault with
      | missingOperand op position =>
          refine Or.inr ⟨op, position, ?_⟩
          rw [conclude, checked]
          rfl
      | danglingOperands count => exact absurd checked (Postorder.check_arrange_marked_ne_dangling _ count)
      | parenthesis position =>
          rcases Recognizer.exists_mem_of_check_parenthesis checked with ⟨side, member⟩
          exact absurd member (Postorder.parenthesis_not_mem_arrange _ side)

/-- Every way in which a compilation can end. -/
theorem outcome_run_cases (settings : Settings) (pattern : List UInt8) :
    (exists made, (run settings pattern).outcome = .ok made) ∨
      (exists position, (run settings pattern).outcome = .error (.refused (.reservedByte position))) ∨
      (exists side, (run settings pattern).outcome = .error (.refused (.unmatched side))) ∨
      exists op position,
        (run settings pattern).outcome = .error (.refused (.missingOperand op position)) := by
  by_cases reserved : Operator.concat.byte ∈ pattern
  · exact Or.inr (Or.inl (outcome_run_of_reserved settings reserved))
  · rw [outcome_run_of_unreserved settings reserved]
    rcases Postorder.ofInfix_cases settings (Token.marked (pattern.map Token.ofByte)) with
      allowed | ⟨side, refused⟩
    · rw [allowed]
      rcases conclude_arranged_cases pattern with completed | failed
      · exact Or.inl completed
      · exact Or.inr (Or.inr (Or.inr failed))
    · rw [refused]
      exact Or.inr (Or.inr (Or.inl ⟨side, rfl⟩))

end Compilation

namespace Regex

open Compilation (arranged)

theorem compile_eq_map (settings : Settings) (pattern : String) :
    compile settings pattern =
      (Compilation.run settings (bytes pattern)).outcome.map fun made =>
        { pattern := pattern, postorder := made.1, recognizer := made.2 } := by
  unfold compile ofCompilation compilation
  cases (Compilation.run settings (bytes pattern)).outcome with
  | error failure => rfl
  | ok made => rfl

theorem compile_eq_ok_iff {settings : Settings} {pattern : String} {regex : Regex} :
    compile settings pattern = .ok regex <->
      regex.pattern = pattern ∧
        (Compilation.run settings (bytes pattern)).outcome = .ok (regex.postorder, regex.recognizer) := by
  rw [compile_eq_map]
  rcases regex with ⟨text, tokens, recognizer⟩
  cases (Compilation.run settings (bytes pattern)).outcome with
  | error failure => simp [Except.map]
  | ok made => simp [Except.map, Prod.ext_iff, eq_comm]

/-- Every way in which compiling can end.  None of them is a defect. -/
theorem compile_cases (settings : Settings) (pattern : String) :
    (exists regex, compile settings pattern = .ok regex) ∨
      (exists position, compile settings pattern = .error (.refused (.reservedByte position))) ∨
      (exists side, compile settings pattern = .error (.refused (.unmatched side))) ∨
      exists op position, compile settings pattern = .error (.refused (.missingOperand op position)) := by
  rw [compile_eq_map]
  rcases Compilation.outcome_run_cases settings (bytes pattern) with
    ⟨made, completed⟩ | ⟨position, refused⟩ | ⟨side, refused⟩ | ⟨op, position, refused⟩
  · rw [completed]
    exact Or.inl ⟨_, rfl⟩
  · rw [refused]
    exact Or.inr (Or.inl ⟨position, rfl⟩)
  · rw [refused]
    exact Or.inr (Or.inr (Or.inl ⟨side, rfl⟩))
  · rw [refused]
    exact Or.inr (Or.inr (Or.inr ⟨op, position, rfl⟩))

/-- The automaton of a compiled pattern is the one of its postorder. -/
theorem assemble_of_compile {settings : Settings} {pattern : String} {regex : Regex}
    (compiled : compile settings pattern = .ok regex) :
    Recognizer.assemble regex.postorder = .ok regex.recognizer := by
  have outcome := (compile_eq_ok_iff.1 compiled).2
  exact ((Compilation.outcome_run_eq_ok_iff _ _ _ _).1 outcome).2.2.2.2

theorem exists_compile_iff (settings : Settings) (pattern : String) (tokens : List Token) :
    (exists regex, compile settings pattern = .ok regex ∧ regex.postorder = tokens) <->
      Operator.concat.byte ∉ bytes pattern ∧
        (settings.strictParentheses = true -> (arranged (bytes pattern)).dropped = []) ∧
        tokens = (arranged (bytes pattern)).postorder ∧ Postorder.check tokens = .ok () := by
  constructor
  · rintro ⟨regex, compiled, same⟩
    have outcome := (compile_eq_ok_iff.1 compiled).2
    rw [same] at outcome
    rcases (Compilation.outcome_run_eq_ok_iff _ _ _ _).1 outcome with
      ⟨unreserved, permitted, order, passed, _⟩
    exact ⟨unreserved, permitted, order, passed⟩
  · rintro ⟨unreserved, permitted, order, passed⟩
    rcases Recognizer.check_eq_ok_iff_assemble.1 passed with ⟨recognizer, assembled⟩
    refine ⟨⟨pattern, tokens, recognizer⟩, compile_eq_ok_iff.2 ⟨rfl, ?_⟩, rfl⟩
    apply (Compilation.outcome_run_eq_ok_iff _ _ _ _).2
    exact ⟨unreserved, permitted, order, passed, assembled⟩

/-! ## Patterns that compile under any settings -/

theorem exists_compile_of_spells (settings : Settings) {pattern : String} {expression : Expression}
    (spelled : Grammar.Spells .sequence expression (bytes pattern)) :
    exists regex, compile settings pattern = .ok regex ∧ regex.postorder = expression.postorder := by
  apply (exists_compile_iff settings pattern expression.postorder).2
  have passed : Postorder.check expression.postorder = .ok () :=
    (Postorder.check_eq_ok_iff _).2 (Or.inr ⟨expression, rfl⟩)
  rw [arranged, Postorder.arrange_of_spells spelled]
  exact ⟨spelled.unreserved, fun _ => rfl, rfl, passed⟩

theorem exists_compile_of_nested (settings : Settings) {pattern : String} {depth : Nat}
    (nests : bytes pattern = Grammar.nested depth) :
    exists regex, compile settings pattern = .ok regex ∧ regex.postorder = [] := by
  apply (exists_compile_iff settings pattern []).2
  rw [arranged, nests, Postorder.arrange_nested]
  exact ⟨Grammar.unreserved_nested depth, fun _ => rfl, rfl, rfl⟩

end Regex
end BytePattern
