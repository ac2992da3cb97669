import BytePattern.Refusal
import BytePattern.Settings

namespace BytePattern
namespace Postorder

/-!
# Arranging tokens in postorder

Operators wait until their right operand is complete.  The waiting ones form a
stack of groups, one for every parenthesis that is still open, and an arriving
operator only ever competes with the group it stands in: it releases, latest
first, the operators that bind at least as strongly as itself.  Operators of
equal strength release each other, so every binary operator associates to the
left.  A closing parenthesis releases what is left of its group.

Keeping the groups apart is what makes unmatched parentheses harmless.  With no
group open, a closing parenthesis releases everything since the start of the
list, as if an opening one had stood there.  At the end every group that is
still open is closed, innermost first.  Both kinds are recorded as dropped, in
the order in which they come to light, and strict settings refuse the first.
-/

/-- A token list in postorder, and the parentheses that were dropped. -/
structure Arrangement where
  postorder : List Token
  dropped : List Parenthesis
deriving DecidableEq, Repr

namespace Arrangement

/-- Puts tokens in front of an arrangement. -/
def emit (tokens : List Token) (arrangement : Arrangement) : Arrangement :=
  { arrangement with postorder := tokens ++ arrangement.postorder }

/-- Records a dropped parenthesis in front of an arrangement. -/
def drop (side : Parenthesis) (arrangement : Arrangement) : Arrangement :=
  { arrangement with dropped := side :: arrangement.dropped }

/-- The arrangement itself, unless the settings refuse what was dropped. -/
def under (settings : Settings) (arrangement : Arrangement) : Except Refusal Arrangement :=
  match settings.strictParentheses, arrangement.dropped with
  | true, side :: _ => .error (.unmatched side)
  | _, _ => .ok arrangement

end Arrangement

/-- Releases a group of waiting operators, latest first. -/
def release (waiting : List Operator) : List Token :=
  waiting.map .operator

/-- The end of the list: the innermost group is released, and every group
around it was opened by a parenthesis that is never closed. -/
def finish (waiting : List Operator) : List (List Operator) -> Arrangement
  | [] => { postorder := release waiting, dropped := [] }
  | outer :: enclosing => ((finish outer enclosing).drop .opening).emit (release waiting)

/-- Arranges the rest of a list.  The operators of the innermost group wait
with the latest first, and so do the groups around it. -/
def arrangeFrom (waiting : List Operator) (enclosing : List (List Operator)) :
    List Token -> Arrangement
  | [] => finish waiting enclosing
  | .literal byte :: rest => (arrangeFrom waiting enclosing rest).emit [.literal byte]
  | .operator op :: rest =>
    let yields := fun (other : Operator) => decide (op.precedence <= other.precedence)
    (arrangeFrom (op :: waiting.dropWhile yields) enclosing rest).emit
      (release (waiting.takeWhile yields))
  | .parenthesis .opening :: rest => arrangeFrom [] (waiting :: enclosing) rest
  | .parenthesis .closing :: rest =>
    match enclosing with
    | outer :: enclosing => (arrangeFrom outer enclosing rest).emit (release waiting)
    | [] => ((arrangeFrom [] [] rest).drop .closing).emit (release waiting)

/-- Puts a token list, with its concatenations written out, into postorder. -/
def arrange (tokens : List Token) : Arrangement :=
  arrangeFrom [] [] tokens

end Postorder
end BytePattern
