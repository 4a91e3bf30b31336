import TurtleScript.Config.Reader
import TurtleScript.Program.Outline
import TurtleScript.Shell.Arguments
import TurtleScript.Shell.Repl

/-!
Commands on files: running, checking and showing programs. A command ends with an exit code that
tells what went wrong, if anything did.
-/

namespace TurtleScript.Shell

/-- Why a file cannot be read. -/
inductive ReadFault where
  | missing
  | directory
  | notDirectory
  | nameTooLong
  | denied
  | encoding
deriving Repr, DecidableEq

/-- The message for a file that cannot be read. -/
def ReadFault.message : ReadFault → String
  | .missing => "No such file or directory (os error 2)"
  | .directory => "Is a directory (os error 21)"
  | .notDirectory => "Not a directory (os error 20)"
  | .nameTooLong => "File name too long (os error 36)"
  | .denied => "Permission denied (os error 13)"
  | .encoding => "stream did not contain valid UTF-8"

abbrev Files := String → Except ReadFault String

structure ExitCode where
  val : UInt8
deriving Repr, DecidableEq

namespace ExitCode

def success : ExitCode := ⟨0⟩

def unreadable : ExitCode := ⟨1⟩

def usage : ExitCode := ⟨2⟩

def malformed : ExitCode := ⟨65⟩

def failed : ExitCode := ⟨70⟩

end ExitCode

/-- What a command writes and how it ends. -/
structure Result where
  transcript : Transcript := {}
  exit : ExitCode := .success
deriving Repr

/-- A result that consists of a message about an error. -/
def Result.error (message : String) (exit : ExitCode) : Result :=
  { transcript := .notice s!"Error: {message}", exit := exit }

/-- A result that reports problems with a program. -/
def Result.problems (draw : Drawing) (name source : String) (problems : List Diagnostic) : Result :=
  { transcript := Report.transcripts draw name source (problems.map .problem), exit := .malformed }

/-- The settings of a command line: those of its file, overridden by its flags. -/
def configOf (files : Files) (settings : Settings) : Except String Config := do
  let config ←
    match settings.config with
    | none => pure {}
    | some path =>
      match files path with
      | .error fault => throw s!"cannot read config {path}: {fault.message}"
      | .ok text =>
        match Config.ofText? text with
        | some config => pure config
        | none => throw "invalid config"
  let speed := (settings.speed.map (Turtle.greater · 0.0)).getD config.turtleSpeed
  return { config with
    turtleSpeed := speed
    maxLoopIterations := settings.maxLoops.getD config.maxLoopIterations }

/-- What was drawn and how long it took, in one line. -/
def summaryLine (sim : Simulation) : String :=
  let canvas := sim.session.world.sprite.canvas
  let ink := Decimal.fixed 1 canvas.ink
  let seconds := Decimal.fixed 2 sim.elapsed
  s!"drew {canvas.segments.size} segments ({ink}px of ink) and {canvas.polygons.size} polygons in {seconds}s"

def runProgram (draw : Drawing) (config : Config) (name source : String) (summary : Bool) : Result :=
  let (ok, sim) := (Simulation.ofConfig config).compile source
  if ok then
    let sim := sim.run
    let printed := Transcript.lines sim.session.world.printed.toList
    let drawn : Transcript := if summary then .notice (summaryLine sim) else {}
    match sim.session.failure? with
    | some failure =>
      { transcript := printed ++ drawn ++ Report.transcript draw name source (.failure failure), exit := .failed }
    | none => { transcript := printed ++ drawn }
  else .problems draw name source sim.session.diagnostics

def checkProgram (draw : Drawing) (name source : String) : Result :=
  match Program.compile source with
  | .ok program =>
    let count := program.statements.length
    { transcript := .lines [s!"✓ {name} parses successfully ({count} statements)"] }
  | .error problems => .problems draw name source problems

def showProgram (draw : Drawing) (name source : String) : Result :=
  match Program.compile source with
  | .ok program => { transcript := .lines [program.outline.layout] }
  | .error problems => .problems draw name source problems

/-- A text with blanks in front of it, up to a width. -/
def padded (width : Nat) (text : String) : String :=
  String.ofList (List.replicate (width - text.length) ' ') ++ text

def tokenLine (token : Token) : String :=
  let line := padded 4 (Decimal.digitText token.span.line)
  s!"{line} {token.kind.label} '{token.lexeme}' @ {token.span.text}"

def showTokens (draw : Drawing) (name source : String) : Result :=
  let scan := Token.scan source
  let listing := Transcript.lines (scan.tokens.map tokenLine)
  if scan.problems.isEmpty then { transcript := listing }
  else
    let reports := Result.problems draw name source scan.problems
    { reports with transcript := listing ++ reports.transcript }

def withSource (files : Files) (path : String) (f : String → String → Result) : Result :=
  match files path with
  | .ok source => f path source
  | .error fault => .error (Diagnostic.io s!"{path}: {fault.message}").text .unreadable

/-- What a command line comes to: a result, or a conversation with the given settings. -/
inductive Plan where
  | result (result : Result)
  | conversation (config : Config)

def versionLine : String := "turt 0.1.0"

def helpText : List String :=
  ["TurtLang - drive a drawing turtle with code",
   "",
   "Usage: turt [OPTIONS] <COMMAND>",
   "",
   "Commands:",
   "  run     Run a TurtLang program against a headless turtle",
   "  check   Scan and parse a source file, reporting every error",
   "  parse   Parse and dump AST as JSON (debug)",
   "  tokens  Tokenize and dump tokens (debug)",
   "  repl    Start an interactive session",
   "  help    Print this message or the help of the given subcommand(s)",
   "",
   "Options:",
   "      --config <CONFIG>        TOML config file",
   "      --speed <SPEED>          Turtle speed in pixels per second (0 = instant)",
   "      --max-loops <MAX_LOOPS>  Iterations a loop may run before it is stopped",
   "  -h, --help                   Print help",
   "  -V, --version                Print version"]

/-- The result for words that lead to no command. -/
def Refusal.result : Refusal → Result
  | .usage => { exit := .usage }
  | .help => { transcript := .lines helpText }
  | .version => { transcript := .lines [versionLine] }

/-- Carries out a command line up to the point where input is needed. -/
def plan (draw : Drawing) (files : Files) (words : List String) : Plan :=
  match Invocation.ofWords words with
  | .error refusal => .result refusal.result
  | .ok invocation =>
    match configOf files invocation.settings with
    | .error message => .result (.error message .unreadable)
    | .ok config =>
      match invocation.command with
      | .run path summary =>
        .result (withSource files path fun name source => runProgram draw config name source summary)
      | .check path => .result (withSource files path (checkProgram draw))
      | .parse path => .result (withSource files path (showProgram draw))
      | .tokens path => .result (withSource files path (showTokens draw))
      | .repl => .conversation config

/-- Carries out a command line on the lines of an input. -/
def perform (files : Files) (words : List String) (input : List String) (draw : Drawing := .plain) : Result :=
  match plan draw files words with
  | .result result => result
  | .conversation config =>
    { transcript := Repl.greeting ++ Repl.converse draw (.ofConfig config) input }

end TurtleScript.Shell
