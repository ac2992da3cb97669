import BytePattern.Compilation
import BytePattern.Search.Basic
import BytePattern.Text.Quoted

namespace BytePattern

/-!
# Notices

What compiling and searching have to tell those who want to follow them.  A
notice is a value like any other.  Its line shows how important it is and then
what happened.
-/

inductive Notice where
  /-- Concatenations were written out. -/
  | marked (tokens result : List Token)
  /-- A parenthesis of these tokens was dropped. -/
  | dropped (side : Parenthesis) (tokens : List Token)
  | compiled (pattern : String) (postorder : List Token) (size : Nat)
  | refused (pattern : String) (refusal : Refusal)
  /-- A search read one byte, which it may yet give back. -/
  | consumed (consumption : Search.Consumption)
deriving DecidableEq, Repr

namespace Notice

/-- What is said of a parenthesis that is dropped, up to the tokens it was among. -/
def ignoring : Parenthesis -> String
  | .opening => "TRACE ignoring unclosed '(' in "
  | .closing => "TRACE ignoring unmatched ')' in "

/-- The line of a notice, if patterns are quoted in the given way. -/
def lineWith (quote : String -> String) : Notice -> String
  | marked tokens result =>
    "TRACE normalized " ++ Token.text tokens ++ " into " ++ Token.text result
  | dropped side tokens => ignoring side ++ Token.text tokens
  | compiled pattern postorder size =>
    "DEBUG compiled " ++ quote pattern ++ " => " ++ Token.text postorder ++
      " (" ++ toString size ++ " states)"
  | refused pattern refusal =>
    "DEBUG failed to compile " ++ quote pattern ++ ": " ++ refusal.message
  | consumed ⟨source, byte, target, position⟩ =>
    "TRACE state " ++ toString source ++ " --" ++ String.ofList (Text.escapeByte byte) ++
      "--> " ++ toString target ++ " at " ++ toString position

/-- The line of a notice, with patterns in double quotes. -/
def line : Notice -> String :=
  lineWith Text.quote

end Notice

namespace Compilation

/-- What the stages did before the outcome was known. -/
def passing : Compilation -> List Notice
  | unread _ => []
  | unbalanced tokens marked _ => [.marked tokens marked]
  | malformed tokens marked arrangement _
  | unassembled tokens marked arrangement _
  | completed tokens marked arrangement _ =>
    .marked tokens marked :: arrangement.dropped.map fun side => .dropped side marked

/-- The last notice.  A defect has none, since it is no answer to the author. -/
def closing (pattern : String) (compilation : Compilation) : List Notice :=
  match compilation.outcome with
  | .ok (postorder, recognizer) => [.compiled pattern postorder recognizer.automaton.size]
  | .error (.refused refusal) => [.refused pattern refusal]
  | .error (.defect _) => []

/-- All notices of a compilation, for a pattern with the given text. -/
def notices (pattern : String) (compilation : Compilation) : List Notice :=
  compilation.passing ++ compilation.closing pattern

end Compilation

end BytePattern
