import BytePattern.Automaton.Path
import BytePattern.Proofs.Automaton.Construction

namespace BytePattern
namespace Automaton

/-!
# The language of an expression in an automaton

An expression that is laid out in an automaton is read on the way from its entry
to its exit.  The exit of an operand may have been continued, so a path can pass
it and come back: behind a repetition it even comes back to the same operand.
What an expression matches is therefore compared with the words read until the
exit is reached *for the first time*.

No state but the exit leads out of the interval of an expression.  A word that
leads further is thus cut where the exit is first reached, and what follows is
determined by the targets that were attached there.  A path to an exit that was
never continued reaches it only once, which gives the language of the whole.
-/

/-- The word leads from a state to the goal, and to the goal only at its end. -/
inductive Arrives (automaton : Automaton) (goal : StateId) : StateId -> List UInt8 -> Prop where
  | here : Arrives automaton goal goal []
  | epsilon {id target : StateId} {state : State} {word : List UInt8} :
      id ≠ goal -> automaton.state? id = some state -> target ∈ state.epsilons ->
        Arrives automaton goal target word -> Arrives automaton goal id word
  | edge {id target : StateId} {state : State} {byte : UInt8} {word : List UInt8} :
      id ≠ goal -> automaton.state? id = some state -> state.next? byte = some target ->
        Arrives automaton goal target word -> Arrives automaton goal id (byte :: word)

/-- An exit without moves is reached by a path only at its end. -/
theorem Path.arrives {automaton : Automaton} {id goal : StateId} {word : List UInt8}
    (path : automaton.Path id word goal)
    (free : automaton.state? goal = some { terminal := true }) :
    Arrives automaton goal id word := by
  induction path with
  | refl id => exact .here
  | @epsilon id target last state word found member _ ih =>
      have apart : id ≠ last := by
        intro same
        rw [same, free] at found
        cases found
        exact List.not_mem_nil member
      exact .epsilon apart found member (ih free)
  | @edge id target last state byte word found reads _ ih =>
      have apart : id ≠ last := by
        intro same
        rw [same, free] at found
        cases found
        contradiction
      exact .edge apart found reads (ih free)

namespace Arrives

variable {automaton : Automaton} {goal id : StateId} {word : List UInt8}

theorem eq_nil (arrives : Arrives automaton goal goal word) : word = [] := by
  cases arrives with
  | here => rfl
  | epsilon apart _ _ _ => exact absurd rfl apart
  | edge apart _ _ _ => exact absurd rfl apart

/-- From a state that something was attached to, one of the targets is next. -/
theorem next {targets : List StateId} (arrives : Arrives automaton goal id word)
    (apart : id ≠ goal) (found : automaton.state? id = some { epsilons := targets }) :
    exists target, target ∈ targets ∧ Arrives automaton goal target word := by
  cases arrives with
  | here => exact absurd rfl apart
  | epsilon _ foundAgain member rest =>
      rw [found] at foundAgain
      cases foundAgain
      exact ⟨_, member, rest⟩
  | edge _ foundAgain reads rest =>
      rw [found] at foundAgain
      cases foundAgain
      contradiction

variable {tree : Expression} {low high : StateId} {whole : Fragment}

/-- A way out of the interval of an expression leads through its exit.  What is
read from there on is described by `rest`, which has to account for every target
of the exit, also for one that leads back into the interval. -/
private theorem leave_into {rest : List UInt8 -> Prop} {targets : List StateId}
    (arrives : Arrives automaton goal id word) (laid : Laid automaton tree low whole high)
    (outside : goal < low ∨ high <= goal)
    (left : automaton.state? whole.exit = some { epsilons := targets })
    (onward : forall target word, target ∈ targets -> Arrives automaton goal target word ->
      (low <= target -> target < high -> exists front back, word = front ++ back ∧
        Arrives automaton whole.exit target front ∧ rest back) -> rest word)
    (fromLow : low <= id) (toHigh : id < high) :
    exists front back, word = front ++ back ∧ Arrives automaton whole.exit id front ∧ rest back := by
  have bounds := laid.bounds
  induction arrives with
  | here => lia
  | @epsilon id target state word apart found member after ih =>
      by_cases atExit : id = whole.exit
      · subst atExit
        rw [left] at found
        cases found
        exact ⟨[], word, rfl, .here, onward target word member after ih⟩
      · rcases laid.confined fromLow toHigh atExit with ⟨other, foundOther, confined⟩
        rw [found] at foundOther
        cases foundOther
        have kept := confined.inside target (State.mem_targets_of_epsilon member)
        rcases ih kept.1 kept.2.1 with ⟨front, back, split, before, behind⟩
        exact ⟨front, back, split, .epsilon atExit found member before, behind⟩
  | @edge id target state byte word apart found reads after ih =>
      by_cases atExit : id = whole.exit
      · rw [atExit, left] at found
        cases found
        contradiction
      · rcases laid.confined fromLow toHigh atExit with ⟨other, foundOther, confined⟩
        rw [found] at foundOther
        cases foundOther
        have kept := confined.inside target (State.mem_targets_of_next? reads)
        rcases ih kept.1 kept.2.1 with ⟨front, back, split, before, behind⟩
        exact ⟨byte :: front, back, congrArg (byte :: ·) split, .edge atExit found reads before,
          behind⟩

/-- The word is cut where the expression is first left, for one of the targets
that were attached to its exit. -/
theorem leave {targets : List StateId} (arrives : Arrives automaton goal whole.entry word)
    (laid : Laid automaton tree low whole high) (outside : goal < low ∨ high <= goal)
    (left : automaton.state? whole.exit = some { epsilons := targets }) :
    exists front back, word = front ++ back ∧ Arrives automaton whole.exit whole.entry front ∧
      exists target, target ∈ targets ∧ Arrives automaton goal target back := by
  have bounds := laid.bounds
  apply arrives.leave_into laid outside left ?_ bounds.1 bounds.2.1
  intro target word member after _
  exact ⟨target, member, after⟩

/-- If the exit leads to the goal only, then the whole word is read inside. -/
theorem leave_once (arrives : Arrives automaton goal whole.entry word)
    (laid : Laid automaton tree low whole high) (outside : goal < low ∨ high <= goal)
    (left : automaton.state? whole.exit = some { epsilons := [goal] }) :
    Arrives automaton whole.exit whole.entry word := by
  rcases arrives.leave laid outside left with ⟨front, back, split, before, target, member, after⟩
  rw [List.mem_singleton.1 member] at after
  rw [split, after.eq_nil, List.append_nil]
  exact before

/-- If the exit leads to the goal or back to the entry, then all that is read
after the first match of the expression are further matches of it. -/
theorem leave_loop (arrives : Arrives automaton goal whole.entry word)
    (laid : Laid automaton tree low whole high) (outside : goal < low ∨ high <= goal)
    (left : automaton.state? whole.exit = some { epsilons := [whole.entry, goal] })
    (sound : forall front, Arrives automaton whole.exit whole.entry front -> tree.Matches front) :
    (Expression.plus tree).Matches word := by
  have bounds := laid.bounds
  have cut : exists front back, word = front ++ back ∧
      Arrives automaton whole.exit whole.entry front ∧ (Expression.star tree).Matches back := by
    apply arrives.leave_into laid outside left ?_ bounds.1 bounds.2.1
    intro target word member after again
    rcases List.mem_cons.1 member with back | done
    · subst back
      rcases again bounds.1 bounds.2.1 with ⟨front, back, split, before, behind⟩
      rw [split]
      exact .starMore (sound front before) behind
    · rw [List.mem_singleton.1 done] at after
      rw [after.eq_nil]
      exact .starNone
  rcases cut with ⟨front, back, split, before, behind⟩
  exact Expression.matches_plus_iff.2 ⟨front, back, split, sound front before, behind⟩

end Arrives

namespace Laid

variable {automaton : Automaton} {tree : Expression} {low high : StateId} {whole : Fragment}
  {word : List UInt8}

/-! ## Only matches are read -/

theorem matches_of_arrives (laid : Laid automaton tree low whole high)
    (arrives : Arrives automaton whole.exit whole.entry word) : tree.Matches word := by
  induction laid generalizing word with
  | @literal byte low entered =>
      cases arrives with
      | epsilon _ found member _ =>
          rw [entered] at found
          cases found
          contradiction
      | @edge _ target _ read word _ found reads rest =>
          rw [entered] at found
          cases found
          rcases State.next?_single_eq_some_iff.1 reads with ⟨sameByte, sameTarget⟩
          subst sameByte sameTarget
          rw [rest.eq_nil]
          exact .literal read
  | @concat left right low middle high front back leftLaid rightLaid joined leftIH rightIH =>
      have leftBounds := leftLaid.bounds
      have rightBounds := rightLaid.bounds
      change Arrives automaton back.exit front.entry word at arrives
      rcases arrives.leave leftLaid (by lia) joined with
        ⟨first, second, split, before, target, member, after⟩
      rw [List.mem_singleton.1 member] at after
      rw [split]
      exact .concat (leftIH before) (rightIH after)
  | @alternate left right low middle last front back leftLaid rightLaid entered leftLeft rightLeft
      leftIH rightIH =>
      have leftBounds := leftLaid.bounds
      have rightBounds := rightLaid.bounds
      rcases arrives.next (by simp) entered with ⟨branch, member, rest⟩
      rcases List.mem_cons.1 member with toLeft | toRight
      · subst toLeft
        exact .alternateLeft (leftIH (rest.leave_once leftLaid (by lia) leftLeft))
      · rw [List.mem_singleton.1 toRight] at rest
        exact .alternateRight (rightIH (rest.leave_once rightLaid (by lia) rightLeft))
  | @optional operand low last inner laid entered left ih =>
      have bounds := laid.bounds
      rcases arrives.next (by simp) entered with ⟨branch, member, rest⟩
      rcases List.mem_cons.1 member with past | through
      · subst past
        rw [rest.eq_nil]
        exact .optionalNone
      · rw [List.mem_singleton.1 through] at rest
        exact .optionalOnce (ih (rest.leave_once laid (by lia) left))
  | @plus operand low last inner laid entered left ih =>
      have bounds := laid.bounds
      rcases arrives.next (by simp) entered with ⟨branch, member, rest⟩
      rw [List.mem_singleton.1 member] at rest
      exact rest.leave_loop laid (by lia) left fun _ => ih
  | @star operand low last inner laid entered left ih =>
      have bounds := laid.bounds
      rcases arrives.next (by simp) entered with ⟨branch, member, rest⟩
      rcases List.mem_cons.1 member with through | past
      · subst through
        have several := rest.leave_loop laid (by lia) left fun _ => ih
        rcases Expression.matches_plus_iff.1 several with ⟨front, back, split, once, more⟩
        rw [split]
        exact .starMore once more
      · rw [List.mem_singleton.1 past] at rest
        rw [rest.eq_nil]
        exact .starNone

/-! ## Every match is read -/

/-- From the exit of a repeated operand, any number of matches leads past it. -/
private theorem path_of_loop {operand : Expression} {inner : Fragment} {goal : StateId}
    (left : automaton.state? inner.exit = some { epsilons := [inner.entry, goal] })
    (read : forall word, operand.Matches word -> automaton.Path inner.entry word inner.exit)
    (found : (Expression.star operand).Matches word) : automaton.Path inner.exit word goal := by
  generalize whole : Expression.star operand = expression at found
  induction found with
  | starNone => exact .epsilon left (by simp) (.refl goal)
  | @starMore _ front back once _ _ ih =>
      cases whole
      exact .epsilon left (by simp) ((read front once).append (ih rfl))
  | _ => contradiction

theorem path_of_matches (laid : Laid automaton tree low whole high)
    (found : tree.Matches word) : automaton.Path whole.entry word whole.exit := by
  induction laid generalizing word with
  | @literal byte low entered =>
      cases found
      exact .edge entered (State.next?_single_eq_some_iff.2 ⟨rfl, rfl⟩) (.refl _)
  | concat _ _ joined leftIH rightIH =>
      cases found with
      | concat first second => exact (leftIH first).append (.epsilon joined (by simp) (rightIH second))
  | @alternate left right low middle last front back _ _ entered leftLeft rightLeft leftIH rightIH =>
      cases found with
      | alternateLeft first =>
          have past : automaton.Path front.exit [] (last + 1) := .epsilon leftLeft (by simp) (.refl _)
          rw [← List.append_nil word]
          exact .epsilon entered (by simp) ((leftIH first).append past)
      | alternateRight second =>
          have past : automaton.Path back.exit [] (last + 1) := .epsilon rightLeft (by simp) (.refl _)
          rw [← List.append_nil word]
          exact .epsilon entered (by simp) ((rightIH second).append past)
  | @optional operand low last inner _ entered left ih =>
      cases found with
      | optionalNone => exact .epsilon entered (by simp) (.refl _)
      | optionalOnce once =>
          have past : automaton.Path inner.exit [] (last + 1) := .epsilon left (by simp) (.refl _)
          rw [← List.append_nil word]
          exact .epsilon entered (by simp) ((ih once).append past)
  | plus _ entered left ih =>
      rcases Expression.matches_plus_iff.1 found with ⟨front, back, split, once, more⟩
      rw [split]
      exact .epsilon entered (by simp) ((ih once).append (path_of_loop left (fun _ => ih) more))
  | star _ entered left ih =>
      cases found with
      | starNone => exact .epsilon entered (by simp) (.refl _)
      | starMore once more =>
          exact .epsilon entered (by simp) ((ih once).append (path_of_loop left (fun _ => ih) more))

end Laid
end Automaton

namespace Recognizer

open Automaton (Arrives)

/-! ## The whole automaton -/

theorem Realizes.path_iff {recognizer : Recognizer} {tree : Expression}
    (realizes : recognizer.Realizes tree) (word : List UInt8) :
    recognizer.automaton.Path recognizer.root.entry word recognizer.root.exit <->
      tree.Matches word := by
  constructor
  · intro path
    exact realizes.laid.matches_of_arrives (path.arrives realizes.exit)
  · intro found
    exact realizes.laid.path_of_matches found

theorem void_path_iff (word : List UInt8) :
    void.automaton.Path void.root.entry word void.root.exit <-> word = [] := by
  have entered : void.automaton.state? void.root.entry = some { epsilons := [void.root.exit] } := rfl
  constructor
  · intro path
    rcases (path.arrives void_tidy.exit).next (by decide) entered with ⟨target, member, rest⟩
    rw [List.mem_singleton.1 member] at rest
    exact rest.eq_nil
  · intro empty
    subst empty
    exact .epsilon entered (List.mem_singleton.2 rfl) (.refl _)

/-- A postorder that passes the check is assembled to an automaton that reads,
on the way from its entry to its exit, the words that the one expression with
this postorder matches.  The automaton of the empty list reads the empty word. -/
theorem path_root_iff_of_check {tokens : List Token}
    (passed : Postorder.check tokens = .ok ()) :
    exists recognizer, assemble tokens = .ok recognizer ∧
      ((tokens = [] ∧ forall word,
          recognizer.automaton.Path recognizer.root.entry word recognizer.root.exit <-> word = []) ∨
        exists tree : Expression, tree.postorder = tokens ∧
          (forall other : Expression, other.postorder = tokens -> other = tree) ∧
          forall word,
            recognizer.automaton.Path recognizer.root.entry word recognizer.root.exit <->
              tree.Matches word) := by
  rcases (Postorder.check_eq_ok_iff tokens).1 passed with empty | ⟨tree, spelled⟩
  · subst empty
    exact ⟨void, assemble_nil, Or.inl ⟨rfl, void_path_iff⟩⟩
  · subst spelled
    rcases assemble_postorder tree with ⟨recognizer, assembled, realizes⟩
    refine ⟨recognizer, assembled, Or.inr ⟨tree, rfl, ?_, realizes.path_iff⟩⟩
    intro other same
    exact Expression.postorder_injective same

/-- A literal may carry the byte that an operator is written with. -/
theorem path_root_iff_of_check_star_of_star :
    Postorder.check [.literal Operator.star.byte, .operator .star] = .ok () ∧
      exists recognizer, assemble [.literal Operator.star.byte, .operator .star] = .ok recognizer ∧
        forall word, recognizer.automaton.Path recognizer.root.entry word recognizer.root.exit <->
          (Expression.star (.literal Operator.star.byte)).Matches word := by
  have passed : Postorder.check [.literal Operator.star.byte, .operator .star] = .ok () := rfl
  refine ⟨passed, ?_⟩
  rcases path_root_iff_of_check passed with
    ⟨recognizer, assembled, ⟨empty, _⟩ | ⟨tree, _, unique, read⟩⟩
  · contradiction
  · rw [unique (.star (.literal Operator.star.byte)) rfl]
    exact ⟨recognizer, assembled, read⟩

end Recognizer
end BytePattern
