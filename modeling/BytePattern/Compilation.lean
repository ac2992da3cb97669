import BytePattern.Automaton.Assembly
import BytePattern.Failure
import BytePattern.Postorder.Arrangement
import BytePattern.Postorder.Check
import BytePattern.Token.Concatenation
import BytePattern.Token.Scan

namespace BytePattern

/-!
# Compiling a pattern

The stages from the bytes of a pattern to an automaton, each of which may put
an end to it.  A compilation is recorded by how far it came, together with
everything that was made on the way, so that whatever is said about it later
need not run a stage again.

A list that passes the check can be assembled.  The last way to fail therefore
never occurs; it is here because the stages do not know of each other.
-/

inductive Compilation where
  /-- The pattern could not be read. -/
  | unread (refusal : Refusal)
  /-- The settings refuse a parenthesis. -/
  | unbalanced (tokens marked : List Token) (refusal : Refusal)
  /-- The arranged tokens are not the postorder of an expression. -/
  | malformed (tokens marked : List Token) (arrangement : Postorder.Arrangement)
      (fault : Postorder.Fault)
  /-- The arranged tokens passed the check and could not be assembled. -/
  | unassembled (tokens marked : List Token) (arrangement : Postorder.Arrangement)
      (fault : Postorder.Fault)
  | completed (tokens marked : List Token) (arrangement : Postorder.Arrangement)
      (recognizer : Recognizer)
deriving DecidableEq, Repr

namespace Compilation

/-- Takes the bytes of a pattern through the stages. -/
def run (settings : Settings) (pattern : List UInt8) : Compilation :=
  match Token.scan pattern with
  | .error refusal => unread refusal
  | .ok tokens =>
    let marked := Token.marked tokens
    match (Postorder.arrange marked).under settings with
    | .error refusal => unbalanced tokens marked refusal
    | .ok arrangement =>
      match Postorder.check arrangement.postorder with
      | .error fault => malformed tokens marked arrangement fault
      | .ok () =>
        match Recognizer.assemble arrangement.postorder with
        | .error fault => unassembled tokens marked arrangement fault
        | .ok recognizer => completed tokens marked arrangement recognizer

/-- The tokens of the pattern, if it could be read. -/
def tokens? : Compilation -> Option (List Token)
  | unread _ => none
  | unbalanced tokens _ _ => some tokens
  | malformed tokens _ _ _ => some tokens
  | unassembled tokens _ _ _ => some tokens
  | completed tokens _ _ _ => some tokens

/-- The tokens with their concatenations written out. -/
def marked? : Compilation -> Option (List Token)
  | unread _ => none
  | unbalanced _ marked _ => some marked
  | malformed _ marked _ _ => some marked
  | unassembled _ marked _ _ => some marked
  | completed _ marked _ _ => some marked

/-- The tokens in postorder, with the parentheses that were dropped. -/
def arrangement? : Compilation -> Option Postorder.Arrangement
  | unread _ => none
  | unbalanced _ _ _ => none
  | malformed _ _ arrangement _ => some arrangement
  | unassembled _ _ arrangement _ => some arrangement
  | completed _ _ arrangement _ => some arrangement

/-- The postorder and its recognizer, or what stood in the way. -/
def outcome : Compilation -> Except Failure (List Token × Recognizer)
  | unread refusal => .error (.refused refusal)
  | unbalanced _ _ refusal => .error (.refused refusal)
  | malformed _ _ _ fault => .error fault.inCheck
  | unassembled _ _ arrangement fault => .error (.defect (fault.inAssembly arrangement.postorder))
  | completed _ _ arrangement recognizer => .ok (arrangement.postorder, recognizer)

end Compilation

end BytePattern
