import BytePattern.Proofs.Text.SelfDelimiting
import BytePattern.Text.Quoted

namespace BytePattern
namespace Text

/-!
# What quoted text shows

Quoting is there so that a message can repeat a pattern of any characters.  It
serves this purpose if nothing is lost and everything can be seen: a quoted text
determines the text and even ends by itself, and it consists of printable
characters only.  The first holds for any choice of the characters that are
printable, as long as a character that stands for itself is no backslash and no
double quote.  The second depends on how the others are shown.
-/

/-! ## Hexadecimal numbers -/

def readHexadecimal (digits : List Char) : Nat :=
  digits.foldl (fun number digit => 16 * number + hexValue digit) 0

theorem readHexadecimal_toDigits (number : Nat) :
    readHexadecimal (Nat.toDigits 16 number) = number := by
  induction number using Nat.strongRecOn with
  | ind number ih =>
      rw [Nat.toDigits_eq_if (by decide)]
      split
      · next small =>
        simp only [readHexadecimal, List.foldl_cons, List.foldl_nil, hexValue_digitChar small,
          Nat.mul_zero, Nat.zero_add]
      · next large =>
        have smaller : number / 16 < number := by omega
        have last : number % 16 < 16 := Nat.mod_lt _ (by decide)
        rw [readHexadecimal, List.foldl_append, ← readHexadecimal, ih _ smaller]
        simp only [List.foldl_cons, List.foldl_nil, hexValue_digitChar last, Nat.div_add_mod]

theorem exists_of_mem_toDigits {number : Nat} {digit : Char}
    (member : digit ∈ Nat.toDigits 16 number) :
    exists value, value < 16 ∧ digit = Nat.digitChar value := by
  induction number using Nat.strongRecOn with
  | ind number ih =>
      rw [Nat.toDigits_eq_if (by decide)] at member
      split at member
      · next small => exact ⟨number, small, List.mem_singleton.1 member⟩
      · next large =>
        rcases List.mem_append.1 member with front | last
        · exact ih _ (by omega) front
        · exact ⟨number % 16, Nat.mod_lt _ (by decide), List.mem_singleton.1 last⟩

/-! ## Reading quoted characters -/

/-- Reads a number up to the brace that closes it. -/
def readCodePoint (text : List Char) : Char × List Char :=
  (Char.ofNat (readHexadecimal (text.takeWhile (· ≠ '\x7d'))), (text.dropWhile (· ≠ '\x7d')).tail)

/-- What stands behind a backslash. -/
def readQuotedEscape : List Char -> Option (Char × List Char)
  | [] => none
  | letter :: rest =>
      if letter = 'u' then some (readCodePoint rest.tail)
      else (namedQuotes.find? fun escape => escape.2 = letter).map fun escape => (escape.1, rest)

/-- Reads one character in quoted form from the front of a text. -/
def readQuoteChar : List Char -> Option (Char × List Char)
  | [] => none
  | first :: rest => if first = backslash then readQuotedEscape rest else some (first, rest)

theorem readCodePoint_toDigits (character : Char) (rest : List Char) :
    readCodePoint (Nat.toDigits 16 character.toNat ++ '\x7d' :: rest) = (character, rest) := by
  have apart : forall value, value < 16 -> decide (Nat.digitChar value ≠ '\x7d') = true := by decide
  have digits : forall digit, digit ∈ Nat.toDigits 16 character.toNat ->
      decide (digit ≠ '\x7d') = true := by
    intro digit member
    rcases exists_of_mem_toDigits member with ⟨value, small, rfl⟩
    exact apart value small
  rw [readCodePoint, List.takeWhile_append_of_pos digits, List.dropWhile_append_of_pos digits,
    List.takeWhile_cons_of_neg (by decide), List.dropWhile_cons_of_neg (by decide), List.append_nil,
    readHexadecimal_toDigits, Char.ofNat_toNat, List.tail_cons]

theorem readQuoteChar_quoteChar (character : Char) (rest : List Char) :
    readQuoteChar (quoteChar character ++ rest) = some (character, rest) := by
  unfold quoteChar
  split
  · next letter named =>
    -- The letters of the named escapes are all different, and none of them is a `u`.
    have letters : forall escape, escape ∈ namedQuotes -> escape.2 ≠ 'u' ∧
        namedQuotes.find? (fun other => other.2 = escape.2) = some escape := by decide
    rcases letters _ (mem_of_lookup named) with ⟨other, found⟩
    simp only [List.cons_append, List.nil_append, readQuoteChar, if_true, readQuotedEscape,
      if_neg other, found, Option.map_some]
  · next unnamed =>
    split
    · have plain : character ≠ backslash := by
        rintro rfl
        contradiction
      simp only [List.cons_append, List.nil_append, readQuoteChar, if_neg plain]
    · simp only [List.cons_append, List.nil_append, List.append_assoc, readQuoteChar, if_true,
        readQuotedEscape, List.tail_cons, readCodePoint_toDigits]

/-! ## Results -/

/-- A double quote inside the text stands behind a backslash, and so the first one
that does not is the end. -/
theorem exists_head_quoteChar (character : Char) :
    exists first rest, quoteChar character = first :: rest ∧ first ≠ '\x22' := by
  unfold quoteChar
  split
  · exact ⟨backslash, _, rfl, by decide⟩
  · next unnamed =>
    split
    · refine ⟨character, [], rfl, ?_⟩
      rintro rfl
      contradiction
    · exact ⟨backslash, _, rfl, by decide⟩

/-- Quoted text shows where it ends, whatever follows it. -/
theorem selfDelimiting_quote : SelfDelimiting fun text => (quote text).toList := by
  have characters : SelfDelimiting quoteChar := .ofRead readQuoteChar readQuoteChar_quoteChar
  have whole := (characters.row '\x22' exists_head_quoteChar).behind ['\x22']
  have same : (fun text => (quote text).toList) = fun text : String =>
      ['\x22'] ++ (text.toList.flatMap quoteChar ++ ['\x22']) := by
    funext text
    rw [quote, String.toList_ofList, List.append_assoc]
  rw [same]
  exact whole.comp fun _ _ => String.toList_inj.1

theorem quote_injective : Function.Injective quote :=
  fun _ _ same => selfDelimiting_quote.injective (congrArg String.toList same)

/-- The characters that quoting adds are all among these. -/
theorem isPrintable_of_ascii {character : Char}
    (ascii : 0x20 <= character.toNat ∧ character.toNat < 0x7f) : isPrintable character = true := by
  rw [isPrintable, decide_eq_true ascii.1, decide_eq_true ascii.2]
  rfl

theorem isPrintable_of_mem_quoteChar {shown character : Char} (member : shown ∈ quoteChar character) :
    isPrintable shown = true := by
  unfold quoteChar at member
  split at member
  · next letter named =>
    have letters : forall escape, escape ∈ namedQuotes ->
        0x20 <= escape.2.toNat ∧ escape.2.toNat < 0x7f := by decide
    rcases List.mem_cons.1 member with rfl | second
    · exact isPrintable_of_ascii (by decide)
    · rw [List.mem_singleton.1 second]
      exact isPrintable_of_ascii (letters _ (mem_of_lookup named))
  · split at member
    · next printable =>
      rw [List.mem_singleton.1 member]
      exact printable
    · have frame : forall shown, shown ∈ [backslash, 'u', '\x7b', '\x7d'] ->
          0x20 <= shown.toNat ∧ shown.toNat < 0x7f := by simp [backslash]
      have digits : forall value, value < 16 -> 0x20 <= (Nat.digitChar value).toNat ∧
          (Nat.digitChar value).toNat < 0x7f := by decide
      apply isPrintable_of_ascii
      rcases List.mem_append.1 member with front | brace
      · rcases List.mem_append.1 front with opening | digit
        · exact frame shown (List.mem_append_left ['\x7d'] opening)
        · rcases exists_of_mem_toDigits digit with ⟨value, small, rfl⟩
          exact digits value small
      · exact frame shown (List.mem_append_right [backslash, 'u', '\x7b'] brace)

/-- All of a quoted text can be seen, even if none of the text can. -/
theorem isPrintable_of_mem_quote {text : String} {shown : Char}
    (member : shown ∈ (quote text).toList) : isPrintable shown = true := by
  rw [quote, String.toList_ofList] at member
  have mark : isPrintable '\x22' = true := isPrintable_of_ascii (by decide)
  rcases List.mem_append.1 member with front | last
  · rcases List.mem_append.1 front with first | inner
    · rw [List.mem_singleton.1 first]
      exact mark
    · rcases List.mem_flatMap.1 inner with ⟨character, _, within⟩
      exact isPrintable_of_mem_quoteChar within
  · rw [List.mem_singleton.1 last]
    exact mark

/-- An accent, which would combine with the letter before it, is shown by itself. -/
example : quote "e\u0301\x22" = "\x22e\\u\x7b301\x7d\\\x22\x22" := by decide

end Text
end BytePattern
