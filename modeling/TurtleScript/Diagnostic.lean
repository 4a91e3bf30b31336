import TurtleScript.Span

/-!
What can be wrong with a program before it runs. A diagnostic carries its message and, unless the
text could not be read at all, the place it points at.
-/

namespace TurtleScript

/-- A problem found before a program runs. -/
inductive Diagnostic where
  /-- Text that is no token. -/
  | scan (message : String) (span : Span)
  /-- A token that cannot stand where it does; the empty lexeme means the end of the text. -/
  | parse (message lexeme : String) (span : Span)
  /-- The text could not be read. -/
  | io (message : String)
deriving Repr, DecidableEq, Inhabited

namespace Diagnostic

def span? : Diagnostic → Option Span
  | .scan _ span | .parse _ _ span => some span
  | .io _ => none

def line? (d : Diagnostic) : Option Nat := d.span?.map Span.line

def message : Diagnostic → String
  | .scan message _ | .parse message _ _ | .io message => message

def location (lexeme : String) : String :=
  if lexeme.isEmpty then " at end" else s!" at '{lexeme}'"

def text : Diagnostic → String
  | .scan message span => s!"[line {span.line}] Error: {message}"
  | .parse message lexeme span => s!"[line {span.line}] Error{location lexeme}: {message}"
  | .io message => s!"IO error: {message}"

def stage : Diagnostic → String
  | .scan _ _ => "Scan"
  | .parse _ _ _ => "Parse"
  | .io _ => "IO"

def title (d : Diagnostic) : String :=
  match d.line? with
  | some line => s!"{d.stage} error on line {line}"
  | none => s!"{d.stage} error"

/-- Whether the first problem points no further into the text than the second; one without a place
comes first. -/
def startsBefore (a b : Diagnostic) : Bool :=
  match a.span?, b.span? with
  | none, _ => true
  | some _, none => false
  | some s, some t => s.start ≤ t.start

end Diagnostic

end TurtleScript
