import BytePattern.Proofs.Regex.Balance
import BytePattern.Proofs.Regex.Meaning
import BytePattern.Proofs.Regex.Strict

namespace BytePattern

/-!
# Patterns put together

Patterns can be combined as texts, and what the whole matches is known from what
its parts match.  Nothing about the parts has to be known but that strict
settings accept them and that they have an operand.  They are then sequences of
the grammar, and the loosest level is the one that can stand anywhere.

In parentheses a sequence is an atom, and every operator may be applied to it.
Two sequences may be written one behind the other without any parentheses.  The
choices of the second one join the sequence of the first from the left, one by
one, and so the tree of the whole is not built from the trees of the two.  It
matches what a concatenation of the two would match, as concatenation is
associative.
-/

namespace Grammar

/-- Two sequences in a row are a sequence. -/
theorem Spells.append {left right : Expression} {front back : List UInt8}
    (first : Spells .sequence left front) (second : Spells .sequence right back) :
    exists whole, Spells .sequence whole (front ++ back) ∧
      forall word, whole.Matches word <-> (Expression.concat left right).Matches word := by
  generalize loosest : Level.sequence = level at second
  induction second with
  | ofChoice choice _ =>
      cases loosest
      exact ⟨_, .concat first choice, fun _ => Iff.rfl⟩
  | @concat inner last before behind sequence choice ih _ =>
      rcases ih loosest with ⟨whole, spelled, same⟩
      refine ⟨.concat whole last, ?_, ?_⟩
      · rw [← List.append_assoc]
        exact .concat spelled choice
      · intro word
        rw [Expression.matches_concat_iff, Expression.matches_concat_iff]
        constructor
        · rintro ⟨_, final, split, early, late⟩
          rcases Expression.matches_concat_iff.1 ((same _).1 early) with ⟨initial, middle, cut, one, two⟩
          refine ⟨initial, middle ++ final, ?_, one, .concat two late⟩
          rw [split, cut, List.append_assoc]
        · rintro ⟨initial, _, split, one, rest⟩
          rcases Expression.matches_concat_iff.1 rest with ⟨middle, final, cut, two, late⟩
          refine ⟨initial ++ middle, final, ?_, (same _).2 (.concat one two), late⟩
          rw [split, cut, List.append_assoc]
  | _ => contradiction

end Grammar

namespace Regex

open Grammar (Spells)

variable {pattern left right : String} {inner : Expression}

/-- The pattern in parentheses. -/
def group (pattern : String) : String :=
  "(" ++ pattern ++ ")"

theorem spells_group (spelled : Spells .sequence inner (bytes pattern)) :
    Spells .repetition inner (bytes (group pattern)) := by
  rw [group, bytes_append, bytes_append]
  exact .ofAtom (.group spelled)

/-- A repetition behind a pattern in parentheses makes a sequence of its own. -/
theorem spells_group_append {repetition : String} {byte : UInt8} {whole : Expression}
    (single : bytes repetition = [byte])
    (spelled : Spells .repetition whole (bytes (group pattern) ++ [byte])) :
    Spells .sequence whole (bytes (group pattern ++ repetition)) := by
  rw [bytes_append, single]
  exact .ofChoice (.ofRepetition spelled)

theorem spells_alternate {first second : Expression} (spelledLeft : Spells .sequence first (bytes left))
    (spelledRight : Spells .sequence second (bytes right)) :
    Spells .sequence (.alternate first second) (bytes (group left ++ "|" ++ group right)) := by
  rw [bytes_append, bytes_append, List.append_assoc]
  exact .ofChoice (.alternate (.ofRepetition (spells_group spelledLeft)) (spells_group spelledRight))

/-- What strict settings accept, with an operand in it, is a sequence that matches
the same inputs. -/
theorem exists_spells_of_compile_strict {regex : Regex} (compiled : compile .strict pattern = .ok regex)
    (filled : regex.postorder ≠ []) :
    exists expression, Spells .sequence expression (bytes pattern) ∧
      forall input, regex.isMatch input = true <-> expression.Matches input := by
  rcases (exists_compile_iff .strict pattern regex.postorder).1 ⟨regex, compiled, rfl⟩ with
    ⟨unreserved, permitted, order, passed⟩
  rw [order] at passed
  rcases Compilation.nested_or_spelled_of_check unreserved (permitted rfl) passed with
    ⟨depth, nests⟩ | ⟨expression, spelled⟩
  · rw [order, Compilation.arranged, nests, Postorder.arrange_nested] at filled
    exact absurd rfl filled
  · refine ⟨expression, spelled, isMatch_iff_of_postorder compiled ?_⟩
    rw [order, Compilation.arranged, Postorder.arrange_of_spells spelled]

/-- A sequence compiles to a regular expression with its meaning. -/
theorem exists_compile_matching (settings : Settings) {meaning : List UInt8 -> Prop} {whole : Expression}
    (spelled : Spells .sequence whole (bytes pattern))
    (same : forall word, whole.Matches word <-> meaning word) :
    exists regex, compile settings pattern = .ok regex ∧
      forall word, regex.isMatch word = true <-> meaning word := by
  rcases exists_compile_of_spells settings spelled with ⟨regex, compiled, postorder⟩
  refine ⟨regex, compiled, ?_⟩
  intro word
  exact (isMatch_iff_of_postorder compiled postorder word).trans (same word)

/-- Two patterns that strict settings accept, with operands in them, can be put one
behind the other, and in parentheses they can be made the operands of a choice and
of every repetition.  All of this compiles, under any settings, and matches what
the parts let expect. -/
theorem exists_compile_composed {first second : Regex} (settings : Settings)
    (compiledLeft : compile .strict left = .ok first) (filledLeft : first.postorder ≠ [])
    (compiledRight : compile .strict right = .ok second) (filledRight : second.postorder ≠ []) :
    (exists regex, compile settings (left ++ right) = .ok regex ∧
        forall word, regex.isMatch word = true <-> exists front back,
          word = front ++ back ∧ first.isMatch front = true ∧ second.isMatch back = true) ∧
      (exists regex, compile settings (group left ++ "|" ++ group right) = .ok regex ∧
        forall word, regex.isMatch word = true <->
          first.isMatch word = true ∨ second.isMatch word = true) ∧
      (exists regex, compile settings (group left ++ "?") = .ok regex ∧
        forall word, regex.isMatch word = true <-> word = [] ∨ first.isMatch word = true) ∧
      (exists regex, compile settings (group left ++ "+") = .ok regex ∧
        forall word, regex.isMatch word = true <-> exists parts : List (List UInt8), parts ≠ [] ∧
          word = parts.flatten ∧ forall part, part ∈ parts -> first.isMatch part = true) ∧
      exists regex, compile settings (group left ++ "*") = .ok regex ∧
        forall word, regex.isMatch word = true <-> exists parts : List (List UInt8),
          word = parts.flatten ∧ forall part, part ∈ parts -> first.isMatch part = true := by
  rcases exists_spells_of_compile_strict compiledLeft filledLeft with ⟨one, spelledLeft, sameLeft⟩
  rcases exists_spells_of_compile_strict compiledRight filledRight with ⟨two, spelledRight, sameRight⟩
  simp only [sameLeft, sameRight]
  refine ⟨?_, ?_, ?_, ?_, ?_⟩
  · rcases spelledLeft.append spelledRight with ⟨whole, spelled, same⟩
    rw [← bytes_append] at spelled
    exact exists_compile_matching settings spelled fun word =>
      (same word).trans Expression.matches_concat_iff
  · exact exists_compile_matching settings (spells_alternate spelledLeft spelledRight)
      fun _ => Expression.matches_alternate_iff
  · exact exists_compile_matching settings
      (spells_group_append rfl (.optional (spells_group spelledLeft)))
      fun _ => Expression.matches_optional_iff
  · exact exists_compile_matching settings
      (spells_group_append rfl (.plus (spells_group spelledLeft)))
      fun _ => Expression.matches_plus_iff_exists_flatten
  · exact exists_compile_matching settings
      (spells_group_append rfl (.star (spells_group spelledLeft)))
      fun _ => Expression.matches_star_iff_exists_flatten

/-- The two choices stay apart, although no parentheses say so. -/
theorem exists_compile_composed_choices_in_a_row :
    exists first second, compile .strict "a|b" = .ok first ∧ first.postorder ≠ [] ∧
      compile .strict "c|d" = .ok second ∧ second.postorder ≠ [] ∧ forall settings,
        (exists regex, compile settings "a|bc|d" = .ok regex ∧
          forall word, regex.isMatch word = true <-> exists front back,
            word = front ++ back ∧ first.isMatch front = true ∧ second.isMatch back = true) ∧
        exists regex, compile settings "(a|b)*" = .ok regex ∧
          forall word, regex.isMatch word = true <-> exists parts : List (List UInt8),
            word = parts.flatten ∧ forall part, part ∈ parts -> first.isMatch part = true := by
  have compiledLeft : exists first, compile .strict "a|b" = .ok first ∧ first.postorder ≠ [] :=
    ⟨_, rfl, List.cons_ne_nil _ _⟩
  have compiledRight : exists second, compile .strict "c|d" = .ok second ∧ second.postorder ≠ [] :=
    ⟨_, rfl, List.cons_ne_nil _ _⟩
  rcases compiledLeft with ⟨first, compiledLeft, filledLeft⟩
  rcases compiledRight with ⟨second, compiledRight, filledRight⟩
  refine ⟨first, second, compiledLeft, filledLeft, compiledRight, filledRight, ?_⟩
  intro settings
  have composed := exists_compile_composed settings compiledLeft filledLeft compiledRight filledRight
  exact ⟨composed.1, composed.2.2.2.2⟩

end Regex
end BytePattern
