import BytePattern.Token.Basic

namespace BytePattern

/-!
# Expressions

What a pattern means.  An expression is a tree of operators over single bytes,
and it denotes the byte strings it matches.  No stage of compilation builds such
a tree.  It is what their results are measured against: a postorder lists the
tokens of a tree, and an automaton accepts what a tree matches.
-/

inductive Expression where
  | literal (byte : UInt8)
  | concat (left right : Expression)
  | alternate (left right : Expression)
  | optional (operand : Expression)
  | plus (operand : Expression)
  | star (operand : Expression)
deriving DecidableEq, Repr

namespace Expression

/-- The byte strings an expression matches.  A repetition is unrolled from the
front, one match of its operand at a time. -/
inductive Matches : Expression -> List UInt8 -> Prop where
  | literal (byte : UInt8) : Matches (.literal byte) [byte]
  | concat {left right : Expression} {front back : List UInt8} :
      Matches left front -> Matches right back -> Matches (.concat left right) (front ++ back)
  | alternateLeft {left right : Expression} {word : List UInt8} :
      Matches left word -> Matches (.alternate left right) word
  | alternateRight {left right : Expression} {word : List UInt8} :
      Matches right word -> Matches (.alternate left right) word
  | optionalNone {operand : Expression} : Matches (.optional operand) []
  | optionalOnce {operand : Expression} {word : List UInt8} :
      Matches operand word -> Matches (.optional operand) word
  | plusOnce {operand : Expression} {word : List UInt8} :
      Matches operand word -> Matches (.plus operand) word
  | plusMore {operand : Expression} {front back : List UInt8} :
      Matches operand front -> Matches (.plus operand) back ->
        Matches (.plus operand) (front ++ back)
  | starNone {operand : Expression} : Matches (.star operand) []
  | starMore {operand : Expression} {front back : List UInt8} :
      Matches operand front -> Matches (.star operand) back ->
        Matches (.star operand) (front ++ back)

/-- The tokens of an expression, each operator after its operands. -/
def postorder : Expression -> List Token
  | literal byte => [.literal byte]
  | concat left right => left.postorder ++ right.postorder ++ [.operator .concat]
  | alternate left right => left.postorder ++ right.postorder ++ [.operator .alternate]
  | optional operand => operand.postorder ++ [.operator .optional]
  | plus operand => operand.postorder ++ [.operator .plus]
  | star operand => operand.postorder ++ [.operator .star]

/-- At least one repetition is a match followed by any number of them. -/
theorem matches_plus_iff {operand : Expression} {word : List UInt8} :
    Matches (.plus operand) word <->
      exists front back, word = front ++ back ∧ Matches operand front ∧
        Matches (.star operand) back := by
  constructor
  · intro found
    generalize whole : Expression.plus operand = expression at found
    induction found with
    | plusOnce once =>
      cases whole
      exact ⟨_, [], (List.append_nil _).symm, once, .starNone⟩
    | plusMore first _ _ ih =>
      cases whole
      obtain ⟨front, back, split, once, rest⟩ := ih rfl
      exact ⟨_, _, rfl, first, split ▸ .starMore once rest⟩
    | _ => contradiction
  · intro found
    obtain ⟨front, back, split, once, rest⟩ := found
    subst split
    generalize whole : Expression.star operand = expression at rest
    induction rest generalizing front with
    | starNone =>
      rw [List.append_nil]
      exact .plusOnce once
    | starMore second _ _ ih =>
      cases whole
      exact .plusMore once (ih _ second rfl)
    | _ => contradiction

theorem matches_concat_iff {left right : Expression} {word : List UInt8} :
    Matches (.concat left right) word <->
      exists front back, word = front ++ back ∧ Matches left front ∧ Matches right back := by
  constructor
  · intro found
    cases found with
    | concat first second => exact ⟨_, _, rfl, first, second⟩
  · rintro ⟨front, back, split, first, second⟩
    exact split ▸ .concat first second

theorem matches_alternate_iff {left right : Expression} {word : List UInt8} :
    Matches (.alternate left right) word <-> Matches left word ∨ Matches right word := by
  constructor
  · intro found
    cases found with
    | alternateLeft first => exact Or.inl first
    | alternateRight second => exact Or.inr second
  · rintro (first | second)
    · exact .alternateLeft first
    · exact .alternateRight second

theorem matches_optional_iff {operand : Expression} {word : List UInt8} :
    Matches (.optional operand) word <-> word = [] ∨ Matches operand word := by
  constructor
  · intro found
    cases found with
    | optionalNone => exact Or.inl rfl
    | optionalOnce once => exact Or.inr once
  · rintro (empty | once)
    · exact empty ▸ .optionalNone
    · exact .optionalOnce once

/-- Any number of repetitions cut the word into as many parts. -/
theorem matches_star_iff_exists_flatten {operand : Expression} {word : List UInt8} :
    Matches (.star operand) word <->
      exists parts : List (List UInt8), word = parts.flatten ∧
        forall part, part ∈ parts -> Matches operand part := by
  constructor
  · intro found
    generalize whole : Expression.star operand = expression at found
    induction found with
    | starNone => exact ⟨[], rfl, fun _ member => absurd member List.not_mem_nil⟩
    | starMore first _ _ ih =>
      cases whole
      obtain ⟨parts, split, each⟩ := ih rfl
      exact ⟨_ :: parts, by rw [split, List.flatten_cons], List.forall_mem_cons.2 ⟨first, each⟩⟩
    | _ => contradiction
  · rintro ⟨parts, split, each⟩
    subst split
    induction parts with
    | nil => exact .starNone
    | cons part parts ih =>
      obtain ⟨first, later⟩ := List.forall_mem_cons.1 each
      exact .starMore first (ih later)

theorem matches_plus_iff_exists_flatten {operand : Expression} {word : List UInt8} :
    Matches (.plus operand) word <->
      exists parts : List (List UInt8), parts ≠ [] ∧ word = parts.flatten ∧
        forall part, part ∈ parts -> Matches operand part := by
  rw [matches_plus_iff]
  constructor
  · rintro ⟨front, back, split, first, rest⟩
    obtain ⟨parts, cut, each⟩ := matches_star_iff_exists_flatten.1 rest
    exact ⟨front :: parts, List.cons_ne_nil _ _, by rw [split, cut, List.flatten_cons],
      List.forall_mem_cons.2 ⟨first, each⟩⟩
  · rintro ⟨_ | ⟨front, parts⟩, some, cut, each⟩
    · contradiction
    · obtain ⟨first, later⟩ := List.forall_mem_cons.1 each
      exact ⟨front, parts.flatten, cut, first, matches_star_iff_exists_flatten.2 ⟨parts, rfl, later⟩⟩

/-- There is no expression that matches nothing at all. -/
theorem exists_matches (expression : Expression) : exists word, expression.Matches word := by
  induction expression with
  | literal byte => exact ⟨[byte], .literal byte⟩
  | concat left right leftIH rightIH =>
    rcases leftIH with ⟨front, first⟩
    rcases rightIH with ⟨back, second⟩
    exact ⟨front ++ back, .concat first second⟩
  | alternate left right leftIH _ =>
    rcases leftIH with ⟨word, first⟩
    exact ⟨word, .alternateLeft first⟩
  | optional operand _ => exact ⟨[], .optionalNone⟩
  | plus operand ih =>
    rcases ih with ⟨word, once⟩
    exact ⟨word, .plusOnce once⟩
  | star operand _ => exact ⟨[], .starNone⟩

end Expression

end BytePattern
