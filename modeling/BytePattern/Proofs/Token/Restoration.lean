import BytePattern.Proofs.Token.Marking
import BytePattern.Token.Scan

namespace BytePattern
namespace Token

/-!
# Marks can be taken out again

Scanning keeps every byte of a pattern, and the pattern does not hold the byte of a
mark.  Whatever shows that byte once the marks are written is therefore a mark, and
the pattern is what remains of the text when these are deleted.

A list that was put together by hand may hold marks of its own.  Which of the marks
were inserted can then no longer be seen in the result, so `annotated` keeps a record
of it.  An inserted mark is not an operand, and nothing is ever written next to it;
thus marking a list twice is no more than marking it once.

Marks are decided by which tokens may end an operand and which may begin one.  Among
the tokens of a pattern, the same can be said by listing those that may not.
-/

/-- The list with its marks, and for each token whether it was inserted. -/
def annotated : List Token -> List (Token × Bool)
  | [] => []
  | [token] => [(token, false)]
  | left :: right :: rest =>
    if left.adjoins right then
      (left, false) :: (operator .concat, true) :: annotated (right :: rest)
    else (left, false) :: annotated (right :: rest)

/-- No operand ends before the seam of the two tokens if the left one opens a group
or a choice, and none begins behind it if the right one goes on with what is there. -/
def MarkDue (left right : Token) : Prop :=
  left ∉ [parenthesis .opening, operator .alternate] ∧
    right ∉ [operator .alternate, operator .optional, operator .plus, operator .star,
      parenthesis .closing]

instance (left right : Token) : Decidable (MarkDue left right) :=
  inferInstanceAs (Decidable (_ ∧ _))

/-! ## What is inserted -/

theorem map_fst_annotated (tokens : List Token) : (annotated tokens).map Prod.fst = marked tokens := by
  fun_induction annotated tokens with
  | case1 => rfl
  | case2 token => rfl
  | case3 left right rest due ih => rw [marked, if_pos due, ← ih, List.map_cons, List.map_cons]
  | case4 left right rest apart ih => rw [marked, if_neg apart, ← ih, List.map_cons]

/-- Without what was inserted, the list is the one that was marked. -/
theorem map_fst_filter_annotated (tokens : List Token) :
    ((annotated tokens).filter fun entry => !entry.2).map Prod.fst = tokens := by
  fun_induction annotated tokens with
  | case1 => rfl
  | case2 token => rfl
  | case3 left right rest due ih => exact congrArg (left :: ·) ih
  | case4 left right rest apart ih => exact congrArg (left :: ·) ih

theorem eq_concat_of_inserted {tokens : List Token} {entry : Token × Bool}
    (member : entry ∈ annotated tokens) (inserted : entry.2 = true) : entry.1 = operator .concat := by
  fun_induction annotated tokens with
  | case1 => contradiction
  | case2 token =>
      rw [List.mem_singleton.1 member] at inserted
      contradiction
  | case3 left right rest due ih =>
      rcases List.mem_cons.1 member with own | behind
      · rw [own] at inserted
        contradiction
      rcases List.mem_cons.1 behind with mark | later
      · rw [mark]
      · exact ih later
  | case4 left right rest apart ih =>
      rcases List.mem_cons.1 member with own | later
      · rw [own] at inserted
        contradiction
      · exact ih later

/-- At most one mark is inserted between any two neighbours. -/
theorem length_marked_lt {tokens : List Token} (some : tokens ≠ []) :
    (marked tokens).length < 2 * tokens.length := by
  fun_induction marked tokens with
  | case1 => contradiction
  | case2 token => simp
  | case3 left right rest due ih =>
      have bound := ih (List.cons_ne_nil _ _)
      simp only [List.length_cons] at bound ⊢
      omega
  | case4 left right rest apart ih =>
      have bound := ih (List.cons_ne_nil _ _)
      simp only [List.length_cons] at bound ⊢
      omega

/-! ## The ends and the seams -/

theorem exists_marked_cons (right : Token) (back : List Token) :
    exists after, marked (right :: back) = right :: after := by
  cases back with
  | nil => exact ⟨[], rfl⟩
  | cons next back => exact ⟨_, marked_cons_cons right next back⟩

theorem exists_marked_concat (front : List Token) (left : Token) :
    exists before, marked (front ++ [left]) = before ++ [left] := by
  rcases List.eq_nil_or_concat front with empty | ⟨initial, previous, split⟩
  · rw [empty]
    exact ⟨[], rfl⟩
  · rw [split, List.concat_eq_append, List.append_assoc]
    exact ⟨_, (marked_append_cons initial previous left []).trans (List.append_assoc _ _ _).symm⟩

theorem filter_ne_concat_marked (tokens : List Token) :
    (marked tokens).filter (· ≠ operator .concat) = tokens.filter (· ≠ operator .concat) := by
  have same : (marked tokens).filterMap (Option.guard (· ≠ operator .concat)) =
      tokens.filterMap (Option.guard (· ≠ operator .concat)) := filterMap_marked rfl tokens
  rwa [List.filterMap_eq_filter] at same

/-- A second pass finds no neighbours to write a mark between. -/
theorem marked_marked (tokens : List Token) : marked (marked tokens) = marked tokens := by
  induction tokens with
  | nil => rfl
  | cons left tokens ih =>
      cases tokens with
      | nil => rfl
      | cons right rest =>
          rcases exists_marked_cons right rest with ⟨after, begins⟩
          rw [marked_cons_cons, begins]
          rw [begins] at ih
          split
          · rw [List.singleton_append, marked_cons_cons, marked_cons_cons, adjoins_concat_left,
              adjoins_concat_right, ih]
            rfl
          · next apart =>
            rw [List.nil_append, marked_cons_cons, if_neg apart, ih]
            rfl

/-- Between two neighbours of a list stands their mark, if there is one, and the rest
of the list is on either side. -/
theorem exists_seam (front back : List Token) (left right : Token) :
    exists before after,
      marked (front ++ left :: right :: back) =
          before ++ left :: ((if left.adjoins right then [operator .concat] else []) ++ right :: after) ∧
        before.filter (· ≠ operator .concat) = front.filter (· ≠ operator .concat) ∧
        after.filter (· ≠ operator .concat) = back.filter (· ≠ operator .concat) := by
  rcases exists_marked_concat front left with ⟨before, ends⟩
  rcases exists_marked_cons right back with ⟨after, begins⟩
  have kept := filter_ne_concat_marked (front ++ [left])
  rw [ends, List.filter_append, List.filter_append] at kept
  have keptBack : ([right] ++ after).filter (· ≠ operator .concat) =
      ([right] ++ back).filter (· ≠ operator .concat) := by
    have whole := filter_ne_concat_marked (right :: back)
    rwa [begins] at whole
  rw [List.filter_append, List.filter_append] at keptBack
  refine ⟨before, after, ?_, List.append_cancel_right kept, List.append_cancel_left keptBack⟩
  rw [marked_append_cons, ends, begins, List.append_assoc]
  rfl

theorem endsOperand_iff {left : Token} (other : left ≠ operator .concat) :
    left.endsOperand = true <-> left ∉ [parenthesis .opening, operator .alternate] := by
  rcases left with byte | op | side
  · simp [endsOperand]
  · cases op <;> first | contradiction | simp [endsOperand, Operator.isRepetition, Operator.precedence]
  · cases side <;> simp [endsOperand]

theorem beginsOperand_iff {right : Token} (other : right ≠ operator .concat) :
    right.beginsOperand = true <->
      right ∉ [operator .alternate, operator .optional, operator .plus, operator .star,
        parenthesis .closing] := by
  rcases right with byte | op | side
  · simp [beginsOperand]
  · cases op <;> first | contradiction | simp [beginsOperand]
  · cases side <;> simp [beginsOperand]

theorem adjoins_iff_markDue {left right : Token} (first : left ≠ operator .concat)
    (second : right ≠ operator .concat) : left.adjoins right = true <-> MarkDue left right := by
  rw [adjoins, Bool.and_eq_true, endsOperand_iff first, beginsOperand_iff second, MarkDue]

/-! ## Patterns -/

/-- Scanning fails at the first reserved byte, and for no other reason. -/
theorem scan_eq_error_iff {pattern : List UInt8} {refusal : Refusal} :
    scan pattern = .error refusal <->
      exists front back, pattern = front ++ Operator.concat.byte :: back ∧
        Operator.concat.byte ∉ front ∧ refusal = .reservedByte front.length := by
  constructor
  · intro failed
    rcases scan_cases pattern with ⟨_, scanned⟩ | ⟨reserved, _⟩
    · rw [scanned] at failed
      contradiction
    · rcases List.eq_append_cons_of_mem reserved with ⟨front, back, split, first⟩
      rw [split, scan_of_first first] at failed
      exact ⟨front, back, split, first, (Except.error.inj failed).symm⟩
  · rintro ⟨front, back, split, first, same⟩
    rw [split, scan_of_first first, same]

theorem exists_scan_error_iff (pattern : List UInt8) :
    (exists refusal, scan pattern = .error refusal) <-> Operator.concat.byte ∈ pattern := by
  rcases scan_cases pattern with ⟨absent, scanned⟩ | ⟨reserved, position, scanned⟩
  · rw [scanned]
    exact iff_of_false (fun ⟨_, failed⟩ => nomatch failed) absent
  · exact iff_of_true ⟨_, scanned⟩ reserved

section Scanned

variable {pattern : List UInt8} {tokens : List Token}

theorem byte_ne_of_scan (scanned : scan pattern = .ok tokens) {token : Token}
    (member : token ∈ tokens) : token.byte ≠ Operator.concat.byte := by
  rcases scan_cases pattern with ⟨absent, _⟩ | ⟨_, position, failed⟩
  · intro reserved
    apply absent
    rw [← map_byte_of_scan scanned, ← reserved]
    exact List.mem_map_of_mem member
  · rw [failed] at scanned
    contradiction

theorem ne_concat_of_scan (scanned : scan pattern = .ok tokens) {token : Token}
    (member : token ∈ tokens) : token ≠ operator .concat := by
  intro same
  exact byte_ne_of_scan scanned member (congrArg byte same)

/-- All that is shown by the character of a mark is a mark. -/
theorem filter_text_marked (scanned : scan pattern = .ok tokens) :
    (text (marked tokens)).toList.filter (· ≠ '.') = tokens.map char := by
  have kept : (marked tokens).filter (fun token => decide (token.char ≠ '.')) = tokens := by
    have marks : forall token, token ∈ marked tokens ->
        decide (token.char ≠ '.') = decide (token ≠ operator .concat) := by
      intro token member
      rcases mem_or_eq_of_mem_marked member with typed | mark
      · have shown : token.char ≠ '.' := by
          intro same
          have dot : token.char = (operator .concat).char := same
          exact byte_ne_of_scan scanned typed (byte_eq_of_char_eq dot)
        rw [decide_eq_true shown, decide_eq_true (ne_concat_of_scan scanned typed)]
      · rw [mark]
        rfl
    rw [List.filter_congr marks, filter_ne_concat_marked, List.filter_eq_self]
    intro token member
    exact decide_eq_true (ne_concat_of_scan scanned member)
  rw [text, String.toList_ofList, List.filter_map]
  exact congrArg (List.map char) kept

/-- The characters that are left have the bytes of the pattern for their code points. -/
theorem toNat_filter_text_marked (scanned : scan pattern = .ok tokens) :
    ((text (marked tokens)).toList.filter (· ≠ '.')).map Char.toNat = pattern.map UInt8.toNat := by
  rw [filter_text_marked scanned, ← map_byte_of_scan scanned, List.map_map, List.map_map]
  exact List.map_congr_left fun token _ => toNat_char token

/-- A pattern begins and ends with tokens of its own. -/
theorem ends_marked_of_scan (scanned : scan pattern = .ok tokens) :
    (marked tokens).head? ≠ some (operator .concat) ∧
      (marked tokens).getLast? ≠ some (operator .concat) := by
  constructor
  · cases tokens with
    | nil => exact nofun
    | cons first rest =>
        rcases exists_marked_cons first rest with ⟨after, begins⟩
        rw [begins, List.head?_cons]
        exact fun same => ne_concat_of_scan scanned List.mem_cons_self (Option.some.inj same)
  · rcases List.eq_nil_or_concat tokens with empty | ⟨front, last, split⟩
    · subst empty
      exact nofun
    · rw [List.concat_eq_append] at split
      rcases exists_marked_concat front last with ⟨before, ends⟩
      rw [split, ends, List.getLast?_concat]
      intro same
      have member : last ∈ tokens := split ▸ List.mem_concat_self
      exact ne_concat_of_scan scanned member (Option.some.inj same)

/-- Between two neighbours of a pattern stands a mark if and only if one is due. -/
theorem exists_seam_of_scan (scanned : scan pattern = .ok tokens) {front back : List Token}
    {left right : Token} (neighbours : tokens = front ++ left :: right :: back) :
    exists before after,
      marked tokens =
          before ++ left :: ((if MarkDue left right then [operator .concat] else []) ++ right :: after) ∧
        before.filter (· ≠ operator .concat) = front ∧
        after.filter (· ≠ operator .concat) = back := by
  subst neighbours
  have own : forall token, token ∈ front ++ left :: right :: back ->
      decide (token ≠ operator .concat) = true := fun token member =>
    decide_eq_true (ne_concat_of_scan scanned member)
  rw [List.forall_mem_append, List.forall_mem_cons, List.forall_mem_cons] at own
  rcases own with ⟨frontOwn, leftOwn, rightOwn, backOwn⟩
  rcases exists_seam front back left right with ⟨before, after, seam, kept, keptBack⟩
  have due := adjoins_iff_markDue (of_decide_eq_true leftOwn) (of_decide_eq_true rightOwn)
  refine ⟨before, after, ?_, ?_, ?_⟩
  · simp only [seam, due]
  · rw [kept, List.filter_eq_self.2 frontOwn]
  · rw [keptBack, List.filter_eq_self.2 backOwn]

end Scanned

/-- Scanning fails at the first reserved byte, if there is one.  Otherwise the text of
the marked tokens shows the pattern as soon as the marks are deleted, and a mark stands
between any two neighbours where it is due, and nowhere else.  Of any list at all, the
marks can be taken out again, and there is nothing left to mark. -/
theorem scanned_and_marked_restored :
    (forall pattern : List UInt8,
      ((exists refusal, scan pattern = .error refusal) <-> Operator.concat.byte ∈ pattern) ∧
      (forall refusal, scan pattern = .error refusal <->
        exists front back, pattern = front ++ Operator.concat.byte :: back ∧
          Operator.concat.byte ∉ front ∧ refusal = .reservedByte front.length) ∧
      forall tokens, scan pattern = .ok tokens ->
        tokens.map byte = pattern ∧
        ((text (marked tokens)).toList.filter (· ≠ '.')).map Char.toNat = pattern.map UInt8.toNat ∧
        ((marked tokens).head? ≠ some (operator .concat) ∧
          (marked tokens).getLast? ≠ some (operator .concat)) ∧
        forall front left right back, tokens = front ++ left :: right :: back ->
          exists before after,
            marked tokens = before ++ left ::
                ((if MarkDue left right then [operator .concat] else []) ++ right :: after) ∧
              before.filter (· ≠ operator .concat) = front ∧
              after.filter (· ≠ operator .concat) = back) ∧
    forall tokens : List Token,
      marked (marked tokens) = marked tokens ∧
        (annotated tokens).map Prod.fst = marked tokens ∧
        ((annotated tokens).filter fun entry => !entry.2).map Prod.fst = tokens ∧
        (forall entry, entry ∈ annotated tokens -> entry.2 = true -> entry.1 = operator .concat) ∧
        (tokens ≠ [] -> (marked tokens).length <= 2 * tokens.length - 1) := by
  constructor
  · intro pattern
    refine ⟨exists_scan_error_iff pattern, fun _ => scan_eq_error_iff, ?_⟩
    intro tokens scanned
    exact ⟨map_byte_of_scan scanned, toNat_filter_text_marked scanned, ends_marked_of_scan scanned,
      fun _ _ _ _ => exists_seam_of_scan scanned⟩
  · intro tokens
    exact ⟨marked_marked tokens, map_fst_annotated tokens, map_fst_filter_annotated tokens,
      fun _ => eq_concat_of_inserted, fun some => Nat.le_sub_one_of_lt (length_marked_lt some)⟩

/-- The two bytes of one letter are two operands, and so the text shows two characters
with a mark between them.  A mark that was there before is not taken for an inserted
one. -/
theorem scanned_and_marked_restored_two_bytes_of_a_letter :
    (exists tokens, scan [0x28, 0x61, 0x7c, 0x62, 0x29, 0x2a, 0xc3, 0xa9] = .ok tokens ∧
      text (marked tokens) = "(a|b)*.Ã.©" ∧
      ((text (marked tokens)).toList.filter (· ≠ '.')).map Char.toNat =
        [0x28, 0x61, 0x7c, 0x62, 0x29, 0x2a, 0xc3, 0xa9] ∧
      exists before after,
        marked tokens = before ++ operator .star :: operator .concat :: literal 0xc3 :: after ∧
          after.filter (· ≠ operator .concat) = [literal 0xa9]) ∧
    scan [0x61, 0x2e, 0x2e] = .error (.reservedByte 1) ∧
    [literal 0x61, operator .concat, literal 0x62, literal 0x63] ≠ [] ∧
    marked [literal 0x61, operator .concat, literal 0x62, literal 0x63] =
      [literal 0x61, operator .concat, literal 0x62, operator .concat, literal 0x63] ∧
    ((annotated [literal 0x61, operator .concat, literal 0x62, literal 0x63]).filter
        fun entry => !entry.2).map Prod.fst =
      [literal 0x61, operator .concat, literal 0x62, literal 0x63] ∧
    (marked [literal 0x61, operator .concat, literal 0x62, literal 0x63]).length <= 7 := by
  rcases scanned_and_marked_restored with ⟨patterns, lists⟩
  have readable : exists tokens,
      scan [0x28, 0x61, 0x7c, 0x62, 0x29, 0x2a, 0xc3, 0xa9] = .ok tokens ∧
        text (marked tokens) = "(a|b)*.Ã.©" ∧
        tokens = [parenthesis .opening, literal 0x61, operator .alternate, literal 0x62,
          parenthesis .closing] ++ operator .star :: literal 0xc3 :: [literal 0xa9] :=
    ⟨_, rfl, rfl, rfl⟩
  refine ⟨?_, ?_, List.cons_ne_nil _ _, rfl, ?_, ?_⟩
  · rcases readable with ⟨tokens, scanned, shown, split⟩
    rcases (patterns _).2.2 tokens scanned with ⟨_, deleted, _, seams⟩
    rcases seams _ _ _ _ split with ⟨before, after, seam, _, behind⟩
    exact ⟨tokens, scanned, shown, deleted, before, after, seam, behind⟩
  · exact ((patterns _).2.1 _).2 ⟨[0x61], [0x2e], rfl, by decide, rfl⟩
  · exact (lists _).2.2.1
  · exact (lists _).2.2.2.2 (List.cons_ne_nil _ _)

end Token
end BytePattern
