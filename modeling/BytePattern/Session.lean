import BytePattern.Regex

namespace BytePattern

/-!
# Sessions

A session holds a draft, which is a pattern with the settings chosen for it so
far, and the regular expression that was compiled last.  Both are absent at
first.  A pattern that fails to compile leaves the earlier regular expression
in place.
-/

/-- A pattern that is yet to be compiled. -/
structure Draft where
  pattern : String
  settings : Settings := {}
deriving DecidableEq, Repr

structure Session where
  draft : Option Draft := none
  current : Option Regex := none
deriving DecidableEq, Repr

namespace Session

inductive Command where
  /-- Begins a draft, with the default settings. -/
  | draft (pattern : String)
  /-- Changes the settings of the draft. -/
  | configure (settings : Settings)
  /-- Compiles the draft. -/
  | build
  /-- Compiles a pattern with the default settings, past any draft. -/
  | compile (pattern : String)
  | isMatch (input : List UInt8)
  | display
deriving DecidableEq, Repr

inductive Reply where
  | done
  /-- There is no draft, or no regular expression, to work on. -/
  | absent
  | regex (regex : Regex)
  | failed (failure : Failure)
  | verdict (accepted : Bool)
deriving DecidableEq, Repr

/-- Makes a newly compiled expression the current one. -/
def adopt (session : Session) : Except Failure Regex -> Reply × Session
  | .ok regex => (.regex regex, { session with current := some regex })
  | .error failure => (.failed failure, session)

def perform (session : Session) : Command -> Reply × Session
  | .draft pattern => (.done, { session with draft := some { pattern := pattern } })
  | .configure settings =>
    match session.draft with
    | some draft => (.done, { session with draft := some { draft with settings := settings } })
    | none => (.absent, session)
  | .build =>
    match session.draft with
    | some draft => session.adopt (Regex.compile draft.settings draft.pattern)
    | none => (.absent, session)
  | .compile pattern => session.adopt (Regex.compile .lenient pattern)
  | .isMatch input =>
    match session.current with
    | some regex => (.verdict (regex.isMatch input), session)
    | none => (.absent, session)
  | .display =>
    match session.current with
    | some regex => (.regex regex, session)
    | none => (.absent, session)

/-- Performs commands one after the other, and collects the replies. -/
def performAll (session : Session) : List Command -> List Reply × Session
  | [] => ([], session)
  | command :: rest =>
    let (reply, next) := session.perform command
    let (replies, last) := next.performAll rest
    (reply :: replies, last)

end Session

end BytePattern
