import BytePattern.Proofs.Regex.Outcome
import BytePattern.Proofs.Search.Trail

namespace BytePattern

/-!
# Observing a match

Whoever follows the notices gets the same result as anyone else.  The notices of
the compilation come first, and if the pattern compiles, a notice follows for every
byte that the search reads.

Each of these tells of a reading that is possible, since a path leads to it.  If
the input is rejected, then they tell of all readings that are, and the reason for
the rejection can be found in them.
-/

open Search (Consumption)

variable {consumption : Consumption}

namespace Recognizer

/-- The byte stands in the input where the line says, some path that spells what
is before it leads to the source, and the source reads it. -/
def Readable (recognizer : Recognizer) (input : List UInt8) (line : Consumption) : Prop :=
  input[line.position]? = some line.byte ∧
    (exists state, recognizer.automaton.state? line.source = some state ∧
      state.next? line.byte = some line.target) ∧
    recognizer.automaton.Path recognizer.root.entry (input.take line.position) line.source

variable {tokens : List Token} {recognizer : Recognizer}

/-- The verdict of a search does not depend on whether it is followed. -/
theorem decide_traced_eq (recognizer : Recognizer) (input : List UInt8) :
    decide ((recognizer.traced input).1 = .accepted) = recognizer.accepts input := by
  rw [traced, Search.traced_eq]
  rfl

theorem traced_eq_attempt (assembled : assemble tokens = .ok recognizer) (input : List UInt8) :
    recognizer.traced input =
      ((Search.attempt recognizer.automaton input recognizer.root.entry 0 ∅).verdict,
        (Search.attempt recognizer.automaton input recognizer.root.entry 0 ∅).trail) :=
  Search.traced_start_eq (tidy_of_assemble assembled).closed (entry_lt_size_of_assemble assembled) input

theorem readable_of_mem_traced (assembled : assemble tokens = .ok recognizer) {input : List UInt8}
    (member : consumption ∈ (recognizer.traced input).2) :
    recognizer.Readable input consumption := by
  rw [traced_eq_attempt assembled] at member
  have possible := (Search.possible_of_mem_trail recognizer.automaton input).1 _ 0 ∅ _ member
  exact Search.Possible.iff_path_take.1 possible

theorem mem_traced_of_readable (assembled : assemble tokens = .ok recognizer) {input : List UInt8}
    (rejected : recognizer.accepts input = false)
    (readable : recognizer.Readable input consumption) :
    consumption ∈ (recognizer.traced input).2 := by
  have tidy := tidy_of_assemble assembled
  have inside := entry_lt_size_of_assemble assembled
  rw [← decide_traced_eq, decide_eq_false_iff_not] at rejected
  rw [traced_eq_attempt assembled] at rejected ⊢
  have fails : (Search.attempt recognizer.automaton input recognizer.root.entry 0 ∅).accepted = false :=
    Bool.eq_false_iff.2 fun accepts => rejected (by rw [Search.Report.verdict, if_pos accepts])
  exact Search.exhausted_start tidy.closed tidy.unmixed inside fails _
    (Search.Possible.iff_path_take.2 readable)

end Recognizer

namespace Regex

variable {settings : Settings} {pattern : String} {input : List UInt8}

/-- The notices of the bytes that are read, if the pattern compiles. -/
def readings (settings : Settings) (pattern : String) (input : List UInt8) : List Notice :=
  match compile settings pattern with
  | .error _ => []
  | .ok regex => (regex.recognizer.traced input).2.map .consumed

theorem mem_readings_iff :
    .consumed consumption ∈ readings settings pattern input <->
      exists regex, compile settings pattern = .ok regex ∧
        consumption ∈ (regex.recognizer.traced input).2 := by
  unfold readings
  cases compile settings pattern <;> simp

/-- What is noticed has no influence on the result, and what the search reads is
noticed last. -/
theorem observe_eq (settings : Settings) (pattern : String) (input : List UInt8) :
    observe settings pattern input =
      ((compilation settings pattern).notices pattern ++ readings settings pattern input,
        (compile settings pattern).map fun regex => regex.isMatch input) := by
  simp only [observe, readings, compile, Recognizer.decide_traced_eq]
  cases ofCompilation pattern (compilation settings pattern) with
  | error failure => exact congrArg (·, _) (List.append_nil _).symm
  | ok regex => rfl

/-- A compilation reads no input. -/
theorem consumed_not_mem_notices (text : String) (compilation : Compilation) :
    .consumed consumption ∉ compilation.notices text := by
  intro member
  rcases List.mem_append.1 member with passing | closing
  · cases compilation <;> simp [Compilation.passing] at passing
  · unfold Compilation.closing at closing
    split at closing <;> simp at closing

theorem consumed_mem_observe_iff :
    .consumed consumption ∈ (observe settings pattern input).1 <->
      exists regex, compile settings pattern = .ok regex ∧
        consumption ∈ (regex.recognizer.traced input).2 := by
  rw [observe_eq, List.mem_append, or_iff_right (consumed_not_mem_notices _ _), mem_readings_iff]

/-- No reading is noticed that is not possible. -/
theorem readable_of_consumed
    (noticed : .consumed consumption ∈ (observe settings pattern input).1) :
    exists regex, compile settings pattern = .ok regex ∧
      regex.recognizer.Readable input consumption := by
  rcases consumed_mem_observe_iff.1 noticed with ⟨regex, compiled, member⟩
  exact ⟨regex, compiled, Recognizer.readable_of_mem_traced (assemble_of_compile compiled) member⟩

/-- If the input is rejected, all readings that are possible are noticed. -/
theorem consumed_iff_readable_of_rejected
    (rejected : (observe settings pattern input).2 = .ok false) :
    .consumed consumption ∈ (observe settings pattern input).1 <->
      exists regex, compile settings pattern = .ok regex ∧
        regex.recognizer.Readable input consumption := by
  refine ⟨readable_of_consumed, ?_⟩
  rintro ⟨regex, compiled, readable⟩
  rw [observe_eq, compiled] at rejected
  have fails : regex.recognizer.accepts input = false := Except.ok.inj rejected
  have assembled := assemble_of_compile compiled
  exact consumed_mem_observe_iff.2
    ⟨regex, compiled, Recognizer.mem_traced_of_readable assembled fails readable⟩

end Regex
end BytePattern
