import BytePattern.Postorder.Check
import BytePattern.Proofs.Automaton.Construction

namespace BytePattern

/-!
# The check agrees with the assembly

The check keeps a number and the assembly keeps a stack, and neither knows of the
other.  Yet the number is always the height of the stack.  A literal raises both
by one, and an operator finds too few pending expressions exactly where it finds
too few fragments.  Hence both get through the same fronts of a list, and where
one of them stops, the other stops at the same token and for the same reason.

No list is excluded.  A parenthesis stops both, and so does an operator without
operands, and whichever stands first is the one that is reported.
-/

namespace Assembly

open Postorder (Fault check checkFrom)

theorem length_of_reduce? {assembly reduced : Assembly} {op : Operator}
    (found : assembly.reduce? op = some reduced) :
    reduced.fragments.length = assembly.fragments.length - op.arity + 1 := by
  rcases assembly with ⟨automaton, _ | ⟨last, _ | ⟨previous, below⟩⟩⟩ <;> cases op <;>
    cases found <;> simp [stack, Operator.arity]

/-- What the assembly makes of a front is all that the check knows of it. -/
theorem checkFrom_append (assembly : Assembly) (position : Nat) (front rest : List Token) :
    checkFrom assembly.fragments.length position (front ++ rest) =
      match assembly.feedAll position front with
      | .ok built => checkFrom built.fragments.length (position + front.length) rest
      | .error fault => .error fault := by
  induction front generalizing assembly position with
  | nil => rfl
  | cons token front ih =>
      have onward : position + (token :: front).length = position + 1 + front.length := by
        rw [List.length_cons]
        omega
      rw [onward]
      cases token with
      | literal byte => exact ih (stack (assembly.automaton.literal byte) assembly.fragments) (position + 1)
      | operator op =>
          simp only [List.cons_append, checkFrom, feedAll, feed]
          cases found : assembly.reduce? op with
          | none => rw [if_pos ((reduce?_eq_none_iff assembly op).1 found)]
          | some reduced =>
              have enough : ¬ assembly.fragments.length < op.arity := by
                intro short
                rw [(reduce?_eq_none_iff assembly op).2 short] at found
                contradiction
              rw [if_neg enough, ← length_of_reduce? found]
              exact ih reduced (position + 1)
      | parenthesis side => rfl

theorem feedAll_append (assembly : Assembly) (position : Nat) (front back : List Token) :
    assembly.feedAll position (front ++ back) =
      match assembly.feedAll position front with
      | .ok built => built.feedAll (position + front.length) back
      | .error fault => .error fault := by
  induction front generalizing assembly position with
  | nil => rfl
  | cons token front ih =>
      rw [List.cons_append, feedAll, feedAll]
      cases assembly.feed position token with
      | error fault => rfl
      | ok next =>
          have onward : position + (token :: front).length = position + 1 + front.length := by
            rw [List.length_cons]
            omega
          rw [onward]
          exact ih next (position + 1)

/-- An assembly that fails does so at a token that it is given when it has taken all
earlier ones. -/
theorem exists_feed_of_feedAll {assembly : Assembly} {position : Nat} {tokens : List Token}
    {fault : Fault} (failed : assembly.feedAll position tokens = .error fault) :
    exists front token rest built, tokens = front ++ token :: rest ∧
      assembly.feedAll position front = .ok built ∧
      built.feed (position + front.length) token = .error fault := by
  induction tokens generalizing assembly position with
  | nil => cases failed
  | cons token tokens ih =>
      rw [feedAll] at failed
      cases fed : assembly.feed position token with
      | error met =>
          rw [fed] at failed
          exact ⟨[], token, tokens, assembly, rfl, rfl, fed.trans failed⟩
      | ok next =>
          rw [fed] at failed
          rcases ih failed with ⟨front, last, rest, built, split, taken, stopped⟩
          refine ⟨token :: front, last, rest, built, congrArg (token :: ·) split, ?_, ?_⟩
          · rw [feedAll, fed]
            exact taken
          · rwa [List.length_cons, Nat.add_comm front.length, ← Nat.add_assoc]

/-- One token at a time, nothing but an operator or a parenthesis fails. -/
theorem feed_error_cases {assembly : Assembly} {position : Nat} {token : Token} {fault : Fault}
    (failed : assembly.feed position token = .error fault) :
    (exists op, token = .operator op ∧ fault = .missingOperand op position) ∨
      exists side, token = .parenthesis side ∧ fault = .parenthesis position := by
  cases token with
  | literal byte => cases failed
  | operator op =>
      rw [feed] at failed
      split at failed
      · cases failed
      · cases failed
        exact Or.inl ⟨op, rfl, rfl⟩
  | parenthesis side =>
      cases failed
      exact Or.inr ⟨side, rfl, rfl⟩

/-- The check passes at the end if the assembly can be finished there. -/
theorem checkFrom_nil (assembly : Assembly) (position : Nat) :
    checkFrom assembly.fragments.length position [] = assembly.finish.map fun _ => () := by
  rcases assembly with ⟨automaton, _ | ⟨root, _ | ⟨next, below⟩⟩⟩ <;> rfl

theorem finish_error_iff {assembly : Assembly} {fault : Fault} :
    assembly.finish = .error fault <->
      1 < assembly.fragments.length ∧ fault = .danglingOperands assembly.fragments.length := by
  rcases assembly with ⟨automaton, _ | ⟨root, _ | ⟨next, below⟩⟩⟩ <;>
    simp [finish, eq_comm]

end Assembly

namespace Postorder

/-- Behind this front, the check has this many pending expressions.  It goes on
with them, whatever the list goes on with. -/
def Pends (front : List Token) (count : Nat) : Prop :=
  forall rest, check (front ++ rest) = checkFrom count front.length rest

/-- What is pending can be told from how the check goes on. -/
theorem eq_of_checkFrom {first second position : Nat}
    (same : forall rest, checkFrom first position rest = checkFrom second position rest) :
    first = second := by
  have ended := same []
  have repeated := same [.operator .star]
  simp only [checkFrom, Operator.arity] at ended repeated
  grind

end Postorder

namespace Recognizer

open Postorder (Fault Pends check checkFrom eq_of_checkFrom)

/-- Assembling takes all tokens before the given position, and fails at the token
that stands there. -/
def FailsAt (tokens : List Token) (position : Nat) (token : Token) (fault : Fault) : Prop :=
  exists front rest built, tokens = front ++ token :: rest ∧ front.length = position ∧
    Assembly.feedAll {} 0 front = .ok built ∧ built.feed position token = .error fault

/-- Assembling takes all tokens, and this many fragments are left of them. -/
def Leaves (tokens : List Token) (count : Nat) : Prop :=
  exists built, Assembly.feedAll {} 0 tokens = .ok built ∧ built.fragments.length = count ∧
    built.finish = .error (.danglingOperands count)

variable {tokens : List Token} {fault : Fault} {position count : Nat}

theorem FailsAt.assemble {token : Token} (fails : FailsAt tokens position token fault) :
    assemble tokens = .error fault := by
  rcases fails with ⟨front, rest, built, split, length, taken, stopped⟩
  rw [Recognizer.assemble, split, Assembly.feedAll_append, taken, length]
  simp only [Assembly.feedAll, Nat.zero_add, stopped]

theorem FailsAt.mem {token : Token} (fails : FailsAt tokens position token fault) : token ∈ tokens := by
  rcases fails with ⟨front, rest, _, split, _⟩
  exact split ▸ List.mem_append_right front List.mem_cons_self

theorem Leaves.assemble (leaves : Leaves tokens count) :
    assemble tokens = .error (.danglingOperands count) := by
  rcases leaves with ⟨built, taken, _, failed⟩
  rw [Recognizer.assemble, taken]
  exact failed

/-- Assembling fails at a token or behind the last one, and the fault tells where. -/
theorem assemble_eq_error_iff :
    assemble tokens = .error fault <->
      match fault with
      | .missingOperand op position => FailsAt tokens position (.operator op) fault
      | .parenthesis position => exists side, FailsAt tokens position (.parenthesis side) fault
      | .danglingOperands count => Leaves tokens count := by
  constructor
  · intro failed
    rw [assemble] at failed
    split at failed
    · next built taken =>
      have same := (Assembly.finish_error_iff.1 failed).2
      subst same
      exact ⟨built, taken, rfl, failed⟩
    · next met stopped =>
      cases failed
      rcases Assembly.exists_feed_of_feedAll stopped with ⟨front, token, rest, built, split, taken, met⟩
      rw [Nat.zero_add] at met
      rcases Assembly.feed_error_cases met with ⟨op, same, own⟩ | ⟨side, same, own⟩
      · subst same own
        exact ⟨front, rest, built, split, rfl, taken, met⟩
      · subst same own
        exact ⟨side, front, rest, built, split, rfl, taken, met⟩
  · intro stops
    cases fault with
    | missingOperand op position => exact FailsAt.assemble stops
    | danglingOperands count => exact Leaves.assemble stops
    | parenthesis position =>
        rcases stops with ⟨side, fails⟩
        exact fails.assemble

/-- The check passes what can be assembled, and otherwise reports the same fault. -/
theorem check_eq_map_assemble (tokens : List Token) :
    check tokens = (assemble tokens).map fun _ => () := by
  have whole := Assembly.checkFrom_append {} 0 tokens []
  rw [List.append_nil] at whole
  refine whole.trans ?_
  rw [assemble]
  cases Assembly.feedAll {} 0 tokens with
  | error fault => rfl
  | ok built => exact Assembly.checkFrom_nil built _

theorem check_eq_ok_iff_assemble :
    check tokens = .ok () <-> exists recognizer, assemble tokens = .ok recognizer := by
  rw [check_eq_map_assemble]
  cases assemble tokens <;> simp [Except.map]

theorem check_eq_error_iff_assemble :
    check tokens = .error fault <-> assemble tokens = .error fault := by
  rw [check_eq_map_assemble]
  cases assemble tokens <;> simp [Except.map]

/-- What can be assembled can be assembled front by front. -/
theorem exists_feedAll_of_assemble {front rest : List Token} {recognizer : Recognizer}
    (assembled : assemble (front ++ rest) = .ok recognizer) :
    exists built, Assembly.feedAll {} 0 front = .ok built := by
  rw [assemble, Assembly.feedAll_append] at assembled
  cases fed : Assembly.feedAll {} 0 front with
  | ok built => exact ⟨built, rfl⟩
  | error fault =>
      rw [fed] at assembled
      contradiction

/-- What the check takes for a parenthesis is one. -/
theorem exists_mem_of_check_parenthesis (failed : check tokens = .error (.parenthesis position)) :
    exists side, .parenthesis side ∈ tokens := by
  rcases assemble_eq_error_iff.1 (check_eq_error_iff_assemble.1 failed) with ⟨side, fails⟩
  exact ⟨side, fails.mem⟩

/-- The check has as many pending expressions as the assembly has fragments, behind
every front that either of them gets through. -/
theorem pends_iff {front : List Token} :
    Pends front count <->
      exists built, Assembly.feedAll {} 0 front = .ok built ∧ built.fragments.length = count := by
  have onward : forall rest, check (front ++ rest) = _ :=
    fun rest => Assembly.checkFrom_append {} 0 front rest
  rw [Nat.zero_add] at onward
  constructor
  · intro pends
    cases fed : Assembly.feedAll {} 0 front with
    | ok built =>
        have same : forall rest, checkFrom built.fragments.length front.length rest =
            checkFrom count front.length rest := by
          intro rest
          rw [← pends rest, onward rest, fed]
        exact ⟨built, rfl, eq_of_checkFrom same⟩
    | error fault =>
        -- A fault of the front would be reported whatever follows, and a literal changes the count.
        have first := pends []
        have second := pends [.literal 0]
        rw [onward, fed] at first second
        have same := first.symm.trans second
        simp only [checkFrom] at same first
        grind
  · rintro ⟨built, taken, length⟩ rest
    rw [onward, taken, ← length]

/-- Whatever the list, checking it and assembling it end in the same way.  They
report the same fault at the same token, and until then the count of the one is
the height of the stack of the other. -/
theorem check_agrees_with_assemble (tokens : List Token) :
    (check tokens = .ok () <-> exists recognizer, assemble tokens = .ok recognizer) ∧
      (forall fault, check tokens = .error fault <-> assemble tokens = .error fault) ∧
      (forall op position, check tokens = .error (.missingOperand op position) <->
        FailsAt tokens position (.operator op) (.missingOperand op position)) ∧
      (forall count, check tokens = .error (.danglingOperands count) <-> Leaves tokens count) ∧
      (forall position, check tokens = .error (.parenthesis position) <->
        exists side, FailsAt tokens position (.parenthesis side) (.parenthesis position)) ∧
      forall front count, Pends front count <->
        exists built, Assembly.feedAll {} 0 front = .ok built ∧ built.fragments.length = count := by
  refine ⟨check_eq_ok_iff_assemble, fun _ => check_eq_error_iff_assemble, ?_, ?_, ?_,
    fun _ _ => pends_iff⟩
  · intro op position
    exact check_eq_error_iff_assemble.trans assemble_eq_error_iff
  · intro count
    exact check_eq_error_iff_assemble.trans assemble_eq_error_iff
  · intro position
    exact check_eq_error_iff_assemble.trans assemble_eq_error_iff

end Recognizer
end BytePattern
