import Mathlib.Data.List.Basic
import BytePattern.Text.ByteEscape
import BytePattern.Token.Basic

namespace BytePattern
namespace Text

/-!
# Text that shows where it ends

Text that is put together from parts can be taken apart again if each part shows
by itself where it ends, whatever follows it.  An escaped byte does, because the
characters behind its backslash tell how many there are.  A number does not, as
another digit may follow, but it does together with a character that is no digit.

This property is kept when parts are written one after the other, when one of two
kinds of parts is written, and when any number of parts are written before a
character that no part begins with.  It is all that has to be known of the parts,
and so nothing written this way needs to be read in order to see that it could be.
-/

/-- What was written, and what follows it, can be told from the whole. -/
def SelfDelimiting {α : Type} (write : α -> List Char) : Prop :=
  forall (first second : α) (rest others : List Char),
    write first ++ rest = write second ++ others -> first = second ∧ rest = others

namespace SelfDelimiting

variable {α β : Type} {write : α -> List Char} {writeOther : β -> List Char}

theorem injective (delimits : SelfDelimiting write) : Function.Injective write := by
  intro first second same
  exact (delimits first second [] [] (by rw [same])).1

/-- A reader that leaves what follows shows where the text ends. -/
theorem ofRead (read : List Char -> Option (α × List Char))
    (reads : forall value rest, read (write value ++ rest) = some (value, rest)) :
    SelfDelimiting write := by
  intro first second rest others same
  have both := reads first rest
  rw [same, reads second others] at both
  rcases Prod.mk.inj (Option.some.inj both) with ⟨value, left⟩
  exact ⟨value.symm, left.symm⟩

/-- The same characters before every text say nothing. -/
theorem behind (delimits : SelfDelimiting write) (front : List Char) :
    SelfDelimiting fun value => front ++ write value := by
  intro first second rest others same
  rw [List.append_assoc, List.append_assoc] at same
  exact delimits first second rest others (List.append_cancel_left same)

theorem pair (delimits : SelfDelimiting write) (delimitsOther : SelfDelimiting writeOther) :
    SelfDelimiting fun values : α × β => write values.1 ++ writeOther values.2 := by
  intro first second rest others same
  rw [List.append_assoc, List.append_assoc] at same
  rcases delimits _ _ _ _ same with ⟨front, later⟩
  rcases delimitsOther _ _ _ _ later with ⟨back, left⟩
  exact ⟨Prod.ext front back, left⟩

/-- What is written of a value need only determine the value. -/
theorem comp (delimits : SelfDelimiting write) {view : β -> α} (determines : Function.Injective view) :
    SelfDelimiting fun value => write (view value) := by
  intro first second rest others same
  rcases delimits _ _ _ _ same with ⟨views, left⟩
  exact ⟨determines views, left⟩

/-- Two kinds of text that begin differently can be used side by side. -/
theorem sum (delimits : SelfDelimiting write) (delimitsOther : SelfDelimiting writeOther)
    (apart : forall first second rest others,
      write first ++ rest ≠ writeOther second ++ others) :
    SelfDelimiting (Sum.elim write writeOther) := by
  intro first second rest others same
  cases first with
  | inl first =>
      cases second with
      | inl second =>
          rcases delimits _ _ _ _ same with ⟨value, left⟩
          exact ⟨congrArg Sum.inl value, left⟩
      | inr second => exact absurd same (apart first second rest others)
  | inr first =>
      cases second with
      | inl second => exact absurd same.symm (apart second first others rest)
      | inr second =>
          rcases delimitsOther _ _ _ _ same with ⟨value, left⟩
          exact ⟨congrArg Sum.inr value, left⟩

/-- Any number of texts, up to a character that none of them begins with. -/
theorem row (delimits : SelfDelimiting write) (stop : Char)
    (begins : forall value, exists start rest, write value = start :: rest ∧ start ≠ stop) :
    SelfDelimiting fun values : List α => values.flatMap write ++ [stop] := by
  have opens : forall value rest others, write value ++ rest ≠ stop :: others := by
    intro value rest others same
    rcases begins value with ⟨start, later, starts, apart⟩
    rw [starts] at same
    exact apart (List.cons.inj same).1
  have unrolled : forall value values rest, (value :: values).flatMap write ++ [stop] ++ rest =
      write value ++ (values.flatMap write ++ [stop] ++ rest) := by
    intro value values rest
    simp only [List.flatMap_cons, List.append_assoc]
  intro first second rest others same
  dsimp only at same
  induction first generalizing second with
  | nil =>
      cases second with
      | nil => exact ⟨rfl, List.append_cancel_left same⟩
      | cons value second =>
          rw [unrolled] at same
          exact absurd same.symm (opens _ _ _)
  | cons value first ih =>
      rw [unrolled] at same
      cases second with
      | nil => exact absurd same (opens _ _ _)
      | cons other second =>
          rw [unrolled] at same
          rcases delimits _ _ _ _ same with ⟨head, later⟩
          rcases ih second later with ⟨tail, left⟩
          exact ⟨congrArg₂ List.cons head tail, left⟩

end SelfDelimiting

/-! ## Numbers -/

/-- A character that is no digit ends a number. -/
theorem selfDelimiting_number (stop : Char) (other : stop.isDigit = false) :
    SelfDelimiting fun number : Nat => Nat.toDigits 10 number ++ [stop] := by
  refine .ofRead (fun text => some
    (Nat.ofDigitChars 10 (text.takeWhile Char.isDigit) 0, (text.dropWhile Char.isDigit).tail)) ?_
  intro number rest
  have digits : forall digit, digit ∈ Nat.toDigits 10 number -> digit.isDigit = true :=
    fun _ => Nat.isDigit_of_mem_toDigits (by decide) (by decide)
  rw [List.append_assoc, List.takeWhile_append_of_pos digits, List.dropWhile_append_of_pos digits,
    List.singleton_append, List.takeWhile_cons_of_neg (by simp [other]),
    List.dropWhile_cons_of_neg (by simp [other]), List.append_nil, Nat.ofDigitChars_ten_toDigits]
  rfl

/-! ## Escaped bytes -/

/-- What is looked up in a list of escapes stands there. -/
theorem mem_of_lookup {α : Type} [BEq α] [LawfulBEq α] {escapes : List (α × Char)} {value : α}
    {letter : Char} (named : escapes.lookup value = some letter) : (value, letter) ∈ escapes := by
  rcases List.lookup_eq_some_iff.1 named with ⟨front, back, split, _⟩
  rw [split]
  exact List.mem_append_right _ List.mem_cons_self

/-- The number that a hexadecimal digit stands for. -/
def hexValue (digit : Char) : Nat :=
  (List.range 16).findIdx fun number => Nat.digitChar number = digit

theorem hexValue_digitChar {number : Nat} (small : number < 16) :
    hexValue (Nat.digitChar number) = number := by
  revert number
  decide

def readHexPair : List Char -> Option (UInt8 × List Char)
  | high :: low :: rest => some (UInt8.ofNat (16 * hexValue high + hexValue low), rest)
  | _ => none

/-- What stands behind a backslash. -/
def readEscape : List Char -> Option (UInt8 × List Char)
  | [] => none
  | letter :: rest =>
      if letter = 'x' then readHexPair rest
      else (namedEscapes.find? fun escape => escape.2 = letter).map fun escape => (escape.1, rest)

/-- Reads one byte in escaped form from the front of a text. -/
def readByte : List Char -> Option (UInt8 × List Char)
  | [] => none
  | first :: rest =>
      if first = backslash then readEscape rest else some (UInt8.ofNat first.toNat, rest)

theorem readHexPair_hexPair (byte : UInt8) (rest : List Char) :
    readHexPair (hexPair byte ++ rest) = some (byte, rest) := by
  have high : byte.toNat / 16 < 16 := Nat.div_lt_of_lt_mul byte.toNat_lt
  have low : byte.toNat % 16 < 16 := Nat.mod_lt _ (by decide)
  have whole : 16 * (byte.toNat / 16) + byte.toNat % 16 = byte.toNat := Nat.div_add_mod _ _
  simp only [hexPair, List.cons_append, List.nil_append, readHexPair, hexValue_digitChar high,
    hexValue_digitChar low, whole, UInt8.ofNat_toNat]

theorem readByte_escapeByte (byte : UInt8) (rest : List Char) :
    readByte (escapeByte byte ++ rest) = some (byte, rest) := by
  unfold escapeByte
  split
  · next letter named =>
    -- The letters of the named escapes are all different, and none of them is an `x`.
    have letters : forall escape, escape ∈ namedEscapes -> escape.2 ≠ 'x' ∧
        namedEscapes.find? (fun other => other.2 = escape.2) = some escape := by decide
    rcases letters _ (mem_of_lookup named) with ⟨other, found⟩
    simp only [List.cons_append, List.nil_append, readByte, if_true, readEscape, if_neg other, found,
      Option.map_some]
  · next unnamed =>
    split
    · next printable =>
      have own : (Char.ofNat byte.toNat).toNat = byte.toNat := Token.toNat_char (.literal byte)
      have plain : Char.ofNat byte.toNat ≠ backslash := by
        intro same
        rw [same] at own
        have escaped : byte = 0x5c := UInt8.toNat_inj.1 own.symm
        rw [escaped] at unnamed
        contradiction
      simp only [List.cons_append, List.nil_append, readByte, if_neg plain, own, UInt8.ofNat_toNat]
    · simp only [List.cons_append, readByte, if_true, readEscape, readHexPair_hexPair]

theorem selfDelimiting_escapeByte : SelfDelimiting escapeByte :=
  .ofRead readByte readByte_escapeByte

/-- A byte is shown by printable characters only. -/
theorem printable_of_mem_escapeByte {byte : UInt8} {character : Char}
    (member : character ∈ escapeByte byte) :
    0x20 <= character.toNat ∧ character.toNat <= 0x7e := by
  unfold escapeByte at member
  split at member
  · next letter named =>
    have letters : forall escape, escape ∈ namedEscapes ->
        0x20 <= escape.2.toNat ∧ escape.2.toNat <= 0x7e := by simp [namedEscapes]
    rcases List.mem_cons.1 member with first | second
    · rw [first]
      decide
    · rw [List.mem_singleton.1 second]
      exact letters _ (mem_of_lookup named)
  · split at member
    · next printable =>
      rw [List.mem_singleton.1 member]
      have own : (Char.ofNat byte.toNat).toNat = byte.toNat := Token.toNat_char (.literal byte)
      rw [own]
      simpa [UInt8.le_iff_toNat_le] using printable
    · have digits : forall number, number < 16 -> 0x20 <= (Nat.digitChar number).toNat ∧
          (Nat.digitChar number).toNat <= 0x7e := by decide
      have high : byte.toNat / 16 < 16 := Nat.div_lt_of_lt_mul byte.toNat_lt
      have low : byte.toNat % 16 < 16 := Nat.mod_lt _ (by decide)
      rcases List.mem_cons.1 member with first | rest
      · rw [first]
        decide
      rcases List.mem_cons.1 rest with second | pair
      · rw [second]
        decide
      rcases List.mem_cons.1 pair with upper | lower
      · exact upper ▸ digits _ high
      · exact List.mem_singleton.1 lower ▸ digits _ low

end Text
end BytePattern
