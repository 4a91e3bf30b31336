import TurtleScript.Simulation

/-!
What a command writes. Results go to one text and reports of errors to another. How a report is drawn
next to the code it points at is left to whoever writes it out.
-/

namespace TurtleScript.Shell

/-- What is written: results, and everything about errors. -/
structure Transcript where
  out : String := ""
  err : String := ""
deriving Repr, Inhabited

namespace Transcript

def append (a b : Transcript) : Transcript := { out := a.out ++ b.out, err := a.err ++ b.err }

instance : Append Transcript := ⟨append⟩

def lines (texts : List String) : Transcript :=
  { out := String.join (texts.map (· ++ "\n")) }

def notice (text : String) : Transcript := { err := text ++ "\n" }

end Transcript

/-- How a report is drawn: the name and the text of a source, a title, a message and the place it points at. -/
abbrev Drawing := (name source title message : String) → Option Span → String

/-- A drawing that shows no part of the source. -/
def Drawing.plain : Drawing := fun name _ title message span? =>
  let place :=
    match span? with
    | some span => s!"{name}:{span.text}"
    | none => name
  s!"Error: {title}\n  {place}: {message}\n"

/-- Something to be reported. -/
inductive Report where
  | problem (diagnostic : Diagnostic)
  | failure (failure : Failure)
deriving Repr

namespace Report

def title : Report → String
  | .problem d => d.title
  | .failure f => f.title

def message : Report → String
  | .problem d => d.message
  | .failure f => f.fault.message

def span? : Report → Option Span
  | .problem d => d.span?
  | .failure f => f.span

/-- A report about a source of the given name, as it is drawn. -/
def transcript (draw : Drawing) (name source : String) (report : Report) : Transcript :=
  { err := draw name source report.title report.message report.span? }

def transcripts (draw : Drawing) (name source : String) (reports : List Report) : Transcript :=
  (reports.map (transcript draw name source)).foldl (· ++ ·) {}

end Report

end TurtleScript.Shell
