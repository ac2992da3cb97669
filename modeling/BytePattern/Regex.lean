import BytePattern.Automaton.Table
import BytePattern.Notice
import BytePattern.Recognizer

namespace BytePattern

/-!
# Regular expressions

A compiled pattern.  It matches an input if some path from the entry of its
automaton spells the whole input, from the first byte to the last, and ends in
a terminal state.
-/

structure Regex where
  pattern : String
  postorder : List Token
  recognizer : Recognizer
deriving DecidableEq, Repr

namespace Regex

/-- The bytes of a text in UTF-8, which is what patterns and inputs consist of. -/
def bytes (text : String) : List UInt8 :=
  text.toUTF8.data.toList

/-- How a pattern fares in compilation. -/
def compilation (settings : Settings) (pattern : String) : Compilation :=
  Compilation.run settings (bytes pattern)

/-- The outcome of a compilation, as a regular expression with the pattern's text. -/
def ofCompilation (pattern : String) (compilation : Compilation) : Except Failure Regex :=
  match compilation.outcome with
  | .ok (postorder, recognizer) =>
    .ok { pattern := pattern, postorder := postorder, recognizer := recognizer }
  | .error failure => .error failure

def compile (settings : Settings) (pattern : String) : Except Failure Regex :=
  ofCompilation pattern (compilation settings pattern)

/-- Whether the whole input matches. -/
def isMatch (regex : Regex) (input : List UInt8) : Bool :=
  regex.recognizer.accepts input

/-- The number of states of the automaton. -/
def size (regex : Regex) : Nat :=
  regex.recognizer.automaton.size

/-- The pattern and its postorder, the ends of the automaton, and its table. -/
def display (regex : Regex) : String :=
  regex.pattern ++ " => " ++ Token.text regex.postorder ++ "\n" ++
    "start(" ++ toString regex.recognizer.root.entry ++
    ") out(" ++ toString regex.recognizer.root.exit ++ ")\n" ++
    regex.recognizer.automaton.table

/-- Compiles a pattern and matches an input, with the notices of both. -/
def observe (settings : Settings) (pattern : String) (input : List UInt8) :
    List Notice × Except Failure Bool :=
  let compilation := compilation settings pattern
  let notices := compilation.notices pattern
  match ofCompilation pattern compilation with
  | .error failure => (notices, .error failure)
  | .ok regex =>
    let (verdict, trail) := regex.recognizer.traced input
    (notices ++ trail.map .consumed, .ok (verdict = .accepted))

end Regex

end BytePattern
