import BytePattern.Refusal

namespace BytePattern

/-!
# Scanning a pattern

The byte of the concatenation mark cannot be a literal: once marks are written
into the token list, a typed one could not be told from an inserted one.  A
pattern that contains it is refused as a whole, at its first occurrence.
Every other byte is classified on its own.
-/

namespace Token

/-- The tokens of a pattern, or the offset of the first reserved byte. -/
def scan (pattern : List UInt8) : Except Refusal (List Token) :=
  match pattern.idxOf? Operator.concat.byte with
  | some position => .error (.reservedByte position)
  | none => .ok (pattern.map ofByte)

theorem scan_of_not_mem {pattern : List UInt8} (absent : Operator.concat.byte ∉ pattern) :
    scan pattern = .ok (pattern.map ofByte) := by
  simp only [scan, List.idxOf?_eq_none_iff.2 absent]

/-- Scanning stops at the first reserved byte, whatever stands behind it. -/
theorem scan_of_first {front : List UInt8} (first : Operator.concat.byte ∉ front) (back : List UInt8) :
    scan (front ++ Operator.concat.byte :: back) = .error (.reservedByte front.length) := by
  have found : (front ++ Operator.concat.byte :: back).idxOf? Operator.concat.byte =
      some front.length := by
    induction front with
    | nil => simp [List.idxOf?_cons]
    | cons byte front ih =>
        have apart : byte ≠ Operator.concat.byte := fun same => first (same ▸ List.mem_cons_self)
        rw [List.cons_append, List.idxOf?_cons, ih (List.not_mem_of_not_mem_cons first)]
        simp [apart]
  simp only [scan, found]

/-- Scanning fails at a reserved byte, and for no other reason. -/
theorem scan_cases (pattern : List UInt8) :
    (Operator.concat.byte ∉ pattern ∧ scan pattern = .ok (pattern.map ofByte)) ∨
      (Operator.concat.byte ∈ pattern ∧
        exists position, scan pattern = .error (.reservedByte position)) := by
  by_cases reserved : Operator.concat.byte ∈ pattern
  · refine Or.inr ⟨reserved, ?_⟩
    cases found : pattern.idxOf? Operator.concat.byte with
    | none => exact absurd reserved (List.idxOf?_eq_none_iff.1 found)
    | some position => exact ⟨position, by simp only [scan, found]⟩
  · exact Or.inl ⟨reserved, scan_of_not_mem reserved⟩

theorem map_byte_map_ofByte (pattern : List UInt8) : (pattern.map ofByte).map byte = pattern := by
  rw [List.map_map]
  exact (List.map_congr_left fun byte _ => byte_ofByte byte).trans (List.map_id pattern)

/-- A scanned token list spells its pattern. -/
theorem map_byte_of_scan {pattern : List UInt8} {tokens : List Token}
    (scanned : scan pattern = .ok tokens) : tokens.map byte = pattern := by
  unfold scan at scanned
  split at scanned
  · contradiction
  · cases scanned
    exact map_byte_map_ofByte pattern

end Token

end BytePattern
