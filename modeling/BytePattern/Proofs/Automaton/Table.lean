import BytePattern.Automaton.Table
import BytePattern.Proofs.Automaton.Construction
import BytePattern.Proofs.Text.SelfDelimiting

namespace BytePattern

/-!
# What a table shows is what an automaton is

A line of a table holds any number of moves of two kinds, and it is hard to see
where a move ends if its byte may be a quote, a space or a line break.  The form in
which bytes are shown takes care of this.  Every move shows where it ends, and so
does a line, because no move begins with the character that ends it.

A table therefore determines the automaton, whatever bytes occur in it.  The
numbers of the states need no separate argument: lines are numbered from zero on,
so two tables with the same text agree on them line by line.
-/

namespace State

/-- The moves of a state in the order of its line. -/
def moves (state : State) : List ((UInt8 × StateId) ⊕ StateId) :=
  state.edges.map Sum.inl ++ state.epsilons.map Sum.inr

theorem filterMap_getLeft?_moves (state : State) :
    state.moves.filterMap Sum.getLeft? = state.edges := by
  simp [moves, List.filterMap_map, Function.comp_def]

theorem filterMap_getRight?_moves (state : State) :
    state.moves.filterMap Sum.getRight? = state.epsilons := by
  simp [moves, List.filterMap_map, Function.comp_def]

/-- Whether a state accepts, and its moves, is all there is to a state. -/
theorem injective_moves :
    Function.Injective fun state : State => (state.terminal, state.moves) := by
  intro first second same
  rcases Prod.mk.inj same with ⟨terminal, listed⟩
  have edges := congrArg (List.filterMap Sum.getLeft?) listed
  have epsilons := congrArg (List.filterMap Sum.getRight?) listed
  rw [filterMap_getLeft?_moves, filterMap_getLeft?_moves] at edges
  rw [filterMap_getRight?_moves, filterMap_getRight?_moves] at epsilons
  cases first
  cases second
  exact State.mk.injEq .. ▸ ⟨terminal, edges, epsilons⟩

/-! ## The text of moves and lines -/

theorem selfDelimiting_edgeText : Text.SelfDelimiting edgeText := by
  have target := (Text.selfDelimiting_number ')' rfl).behind ['\x27', '(']
  have whole := (Text.selfDelimiting_escapeByte.pair target).behind [' ', '\x27']
  have same : edgeText = fun edge : UInt8 × StateId =>
      [' ', '\x27'] ++ (Text.escapeByte edge.1 ++ (['\x27', '('] ++ (Nat.toDigits 10 edge.2 ++ [')']))) := by
    funext edge
    simp [edgeText, moveText]
  exact same ▸ whole

theorem selfDelimiting_epsilonText : Text.SelfDelimiting epsilonText := by
  have whole := (Text.selfDelimiting_number ')' rfl).behind [' ', 'e', 'p', 's', '(']
  have same : epsilonText = fun target : StateId =>
      [' ', 'e', 'p', 's', '('] ++ (Nat.toDigits 10 target ++ [')']) := by
    funext target
    simp [epsilonText, moveText]
  exact same ▸ whole

/-- Behind the space, a move shows its kind. -/
theorem selfDelimiting_moveText : Text.SelfDelimiting (Sum.elim edgeText epsilonText) := by
  apply selfDelimiting_edgeText.sum selfDelimiting_epsilonText
  intro edge target rest others same
  simp [edgeText, epsilonText, moveText] at same

/-- What stands behind the number of a state in its line. -/
def lineEnd (state : State) : List Char :=
  [if state.terminal then '*' else ' ', ':'] ++
    (state.moves.flatMap (Sum.elim edgeText epsilonText) ++ ['\n'])

theorem line_eq (id : StateId) (state : State) :
    state.line id = (Nat.toDigits 10 id).leftpad 3 ' ' ++ state.lineEnd := by
  simp [line, lineEnd, moves, List.flatMap_append, List.flatMap_map]

theorem selfDelimiting_lineEnd : Text.SelfDelimiting lineEnd := by
  have flag : Text.SelfDelimiting fun terminal : Bool => [if terminal then '*' else ' ', ':'] := by
    intro first second rest others same
    rcases List.cons.inj same with ⟨flags, later⟩
    refine ⟨?_, (List.cons.inj later).2⟩
    cases first <;> cases second <;> first | rfl | contradiction
  have begins : forall move, exists start rest,
      Sum.elim edgeText epsilonText move = start :: rest ∧ start ≠ '\n' := by
    intro move
    cases move <;> exact ⟨' ', _, rfl, by decide⟩
  have listed := selfDelimiting_moveText.row '\n' begins
  exact (flag.pair listed).comp injective_moves

theorem selfDelimiting_line (id : StateId) : Text.SelfDelimiting (line id) := by
  have same : line id = fun state => (Nat.toDigits 10 id).leftpad 3 ' ' ++ state.lineEnd := by
    funext state
    exact line_eq id state
  exact same ▸ selfDelimiting_lineEnd.behind _

/-! ## Where a line ends -/

private theorem isDigit_of_mem {digit : Char} {number : Nat} (member : digit ∈ Nat.toDigits 10 number) :
    digit.isDigit = true :=
  Nat.isDigit_of_mem_toDigits (by decide) (by decide) member

theorem newline_not_mem_moveText (move : (UInt8 × StateId) ⊕ StateId) :
    '\n' ∉ Sum.elim edgeText epsilonText move := by
  have digits : forall number, '\n' ∉ Nat.toDigits 10 number := by
    intro number member
    exact absurd (isDigit_of_mem member) (by decide)
  have escaped : forall byte, '\n' ∉ Text.escapeByte byte := by
    intro byte member
    exact absurd (Text.printable_of_mem_escapeByte member).1 (by decide)
  cases move with
  | inl edge => simp [edgeText, moveText, digits, escaped]
  | inr target => simp [epsilonText, moveText, digits]

theorem count_newline_line (id : StateId) (state : State) : (state.line id).count '\n' = 1 := by
  have number : '\n' ∉ (Nat.toDigits 10 id).leftpad 3 ' ' := by
    intro member
    rcases List.mem_append.1 member with padding | digits
    · exact absurd (List.eq_of_mem_replicate padding) (by decide)
    · exact absurd (isDigit_of_mem digits) (by decide)
  have flag : '\n' ∉ [if state.terminal then '*' else ' ', ':'] := by
    cases state.terminal <;> decide
  have listed : '\n' ∉ state.moves.flatMap (Sum.elim edgeText epsilonText) := by
    intro member
    rcases List.mem_flatMap.1 member with ⟨move, _, among⟩
    exact newline_not_mem_moveText move among
  rw [line_eq, lineEnd, List.count_append, List.count_append, List.count_append,
    List.count_eq_zero.2 number, List.count_eq_zero.2 flag, List.count_eq_zero.2 listed]
  rfl

/-! ## The number of a line -/

/-- The digits before the colon. -/
def numberShown (text : List Char) : Nat :=
  Nat.ofDigitChars 10 ((text.takeWhile fun character => character ≠ ':').filter Char.isDigit) 0

theorem numberShown_line (id : StateId) (state : State) : numberShown (state.line id) = id := by
  have split : state.line id =
      List.replicate (3 - (Nat.toDigits 10 id).length) ' ' ++ Nat.toDigits 10 id ++
        [if state.terminal then '*' else ' '] ++
        ':' :: (state.moves.flatMap (Sum.elim edgeText epsilonText) ++ ['\n']) := by
    simp [line_eq, lineEnd, List.leftpad]
  have front : forall character,
      character ∈ List.replicate (3 - (Nat.toDigits 10 id).length) ' ' ++ Nat.toDigits 10 id ++
        [if state.terminal then '*' else ' '] -> decide (character ≠ ':') = true := by
    intro character member
    rcases List.mem_append.1 member with early | flag
    · rcases List.mem_append.1 early with padding | digits
      · rw [List.eq_of_mem_replicate padding]
        decide
      · apply decide_eq_true
        intro same
        exact absurd (isDigit_of_mem (same ▸ digits)) (by decide)
    · rw [List.mem_singleton.1 flag]
      cases state.terminal <;> decide
  have padding : (List.replicate (3 - (Nat.toDigits 10 id).length) ' ').filter Char.isDigit = [] :=
    List.filter_replicate_of_neg (by decide)
  have digits : (Nat.toDigits 10 id).filter Char.isDigit = Nat.toDigits 10 id :=
    List.filter_eq_self.2 fun _ member => isDigit_of_mem member
  have flag : [if state.terminal then '*' else ' '].filter Char.isDigit = [] := by
    cases state.terminal <;> rfl
  rw [numberShown, split, List.takeWhile_append_of_pos front,
    List.takeWhile_cons_of_neg (by decide), List.append_nil, List.filter_append, List.filter_append,
    padding, digits, flag, List.nil_append, List.append_nil]
  exact Nat.ofDigitChars_ten_toDigits

/-- No two lines are the same, but for the same state with the same number. -/
theorem eq_of_line_eq {id other : StateId} {state another : State}
    (same : state.line id = another.line other) : id = other ∧ state = another := by
  have number : id = other := by
    rw [← numberShown_line id state, same, numberShown_line]
  subst number
  exact ⟨rfl, (selfDelimiting_line id).injective same⟩

/-! ## Bytes in ascending order -/

/-- The bytes that can be read at a state, in ascending order, and where they lead. -/
def transitions (state : State) : List (UInt8 × StateId) :=
  (List.range 256).filterMap fun number =>
    (state.next? (UInt8.ofNat number)).map fun target => (UInt8.ofNat number, target)

/-- At most one number of a range can be kept if only one is wanted. -/
private theorem filterMap_range_single {α : Type} (choose : Nat -> Option α) {wanted size : Nat}
    (others : forall number, number < size -> number ≠ wanted -> choose number = none) :
    (List.range size).filterMap choose = if wanted < size then (choose wanted).toList else [] := by
  induction size with
  | zero => rfl
  | succ size ih =>
      have earlier := ih fun number before => others number (Nat.lt_succ_of_lt before)
      rw [List.range_succ, List.filterMap_append, earlier]
      rcases Nat.lt_trichotomy wanted size with before | same | behind
      · have last := others size (Nat.lt_succ_self size) (Nat.ne_of_gt before)
        simp [before, Nat.lt_succ_of_lt before, last]
      · subst same
        cases chosen : choose wanted <;> simp [chosen]
      · have last := others size (Nat.lt_succ_self size) (Nat.ne_of_lt behind)
        simp [last, Nat.not_lt.2 (Nat.le_of_lt behind), Nat.not_lt.2 (Nat.succ_le_of_lt behind)]

/-- Where there is only one edge, there is nothing to be put in order. -/
theorem transitions_of_single {state : State} {edge : UInt8 × StateId} (edges : state.edges = [edge]) :
    state.transitions = [edge] := by
  rcases edge with ⟨byte, target⟩
  have others : forall number, number < 256 -> number ≠ byte.toNat ->
      (state.next? (UInt8.ofNat number)).map (fun target => (UInt8.ofNat number, target)) = none := by
    intro number below apart
    have different : UInt8.ofNat number ≠ byte := by
      intro same
      rw [← same, UInt8.toNat_ofNat_of_lt' below] at apart
      exact apart rfl
    simp [next?, edges, List.lookup_cons, beq_false_of_ne different]
  rw [transitions, filterMap_range_single _ others, if_pos byte.toNat_lt]
  simp [next?, edges]

theorem transitions_of_none {state : State} (edges : state.edges = []) : state.transitions = [] := by
  simp [transitions, next?, edges]

end State

namespace Automaton

theorem injective_linesFrom (first : StateId) : Function.Injective (linesFrom first) := by
  have shown : forall id state, State.line id state ≠ [] := by
    intro id state empty
    have newlines := State.count_newline_line id state
    rw [empty] at newlines
    contradiction
  intro states others same
  induction states generalizing first others with
  | nil =>
      cases others with
      | nil => rfl
      | cons other others => exact absurd (List.append_eq_nil_iff.1 same.symm).1 (shown first other)
  | cons state states ih =>
      cases others with
      | nil => exact absurd (List.append_eq_nil_iff.1 same).1 (shown first state)
      | cons other others =>
          rcases State.selfDelimiting_line first _ _ _ _ same with ⟨head, later⟩
          rw [head, ih (first + 1) later]

theorem injective_table : Function.Injective table := by
  intro first second same
  have states := injective_linesFrom 0 (String.ofList_injective same)
  cases first
  cases second
  exact congrArg Automaton.mk (Array.toList_inj.1 states)

theorem count_newline_linesFrom (first : StateId) (states : List State) :
    (linesFrom first states).count '\n' = states.length := by
  induction states generalizing first with
  | nil => rfl
  | cons state states ih =>
      rw [linesFrom, List.count_append, State.count_newline_line, ih, List.length_cons, Nat.add_comm]

theorem count_newline_table (automaton : Automaton) :
    automaton.table.toList.count '\n' = automaton.size := by
  rw [table, String.toList_ofList, count_newline_linesFrom, Array.length_toList, size]

end Automaton

namespace Recognizer

open State (edgeText epsilonText)

/-- What is shown of a state in an assembled automaton is each byte it reads, in
ascending order. -/
theorem Tidy.edges_eq_transitions {recognizer : Recognizer} (tidy : recognizer.Tidy) {id : StateId}
    {state : State} (found : recognizer.automaton.state? id = some state) :
    state.edges = state.transitions := by
  rcases tidy.state_cases found with ⟨_, free⟩ | ⟨_, confined⟩
  · rw [free]
    exact (State.transitions_of_none rfl).symm
  · rcases confined.single with ⟨edge, edges, _⟩ | ⟨edges, _⟩
    · rw [edges, State.transitions_of_single edges]
    · rw [edges, State.transitions_of_none edges]

/-- Two automata with the same table are the same, and a table has a line for
each state.  What a move or a line looks like does not depend on its bytes: it
shows where it ends, a move contains no line break, and a line shows the number
and the state it is about.  An assembled automaton lists all bytes that can be
read at a state, and in ascending order, so nothing is lost in the listing. -/
theorem automaton_determined_by_table :
    (forall (tokens others : List Token) (recognizer other : Recognizer),
      assemble tokens = .ok recognizer -> assemble others = .ok other ->
      recognizer.automaton.table = other.automaton.table ->
        recognizer.automaton = other.automaton) ∧
    (forall (tokens : List Token) (recognizer : Recognizer), assemble tokens = .ok recognizer ->
      recognizer.automaton.table.toList.count '\n' = recognizer.automaton.size ∧
      forall id state, recognizer.automaton.state? id = some state ->
        state.edges = state.transitions) ∧
    Text.SelfDelimiting (Sum.elim edgeText epsilonText) ∧
    (forall move, '\n' ∉ Sum.elim edgeText epsilonText move) ∧
    (forall id, Text.SelfDelimiting (State.line id)) ∧
    forall id other state another, State.line id state = State.line other another ->
      id = other ∧ state = another := by
  refine ⟨?_, ?_, State.selfDelimiting_moveText, State.newline_not_mem_moveText,
    State.selfDelimiting_line, fun _ _ _ _ => State.eq_of_line_eq⟩
  · intro tokens others recognizer other _ _ same
    exact Automaton.injective_table same
  · intro tokens recognizer assembled
    refine ⟨Automaton.count_newline_table _, ?_⟩
    intro id state found
    exact (tidy_of_assemble assembled).edges_eq_transitions found

/-- A quote and a line break are shown by two characters each, and the table has
four lines for four states. -/
theorem automaton_determined_by_table_quote_and_newline :
    exists recognizer : Recognizer,
      assemble [.literal 0x27, .literal 0x0a, .operator .concat] = .ok recognizer ∧
      recognizer.automaton.table.toList.count '\n' = 4 ∧
      (forall (others : List Token) (other : Recognizer), assemble others = .ok other ->
        other.automaton.table =
            "  0 : \x27\x5c\x27\x27(1)\n  1 : eps(2)\n  2 : \x27\x5cn\x27(3)\n  3*:\n" ->
          other.automaton = recognizer.automaton) := by
  have assembled : exists recognizer : Recognizer,
      assemble [.literal 0x27, .literal 0x0a, .operator .concat] = .ok recognizer ∧
      recognizer.automaton.size = 4 ∧
      recognizer.automaton.table =
        "  0 : \x27\x5c\x27\x27(1)\n  1 : eps(2)\n  2 : \x27\x5cn\x27(3)\n  3*:\n" :=
    ⟨_, rfl, rfl, by decide +kernel⟩
  rcases assembled with ⟨recognizer, assembled, size, shown⟩
  have counted := (automaton_determined_by_table.2.1 _ recognizer assembled).1
  refine ⟨recognizer, assembled, counted.trans size, ?_⟩
  intro others other assembledOther same
  exact automaton_determined_by_table.1 others _ other recognizer assembledOther assembled
    (same.trans shown.symm)

end Recognizer
end BytePattern
