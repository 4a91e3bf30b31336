import TurtleScript.Shell.Report
import TurtleScript.Text.Blank

/-!
A conversation line by line. A line that starts with a colon is a request to the conversation
itself; any other one is run on what earlier lines have made.
-/

namespace TurtleScript.Shell.Repl

/-- A request to the conversation. -/
inductive Request where
  | quit | help | vars | turtle | reset | clear
  | unknown (line : String)
deriving Repr, DecidableEq

/-- The request on a line. All colons in front of it are dropped. -/
def Request.ofLine (line : String) : Request :=
  match String.ofList (line.toList.dropWhile (· = ':')) with
  | "quit" | "q" | "exit" => .quit
  | "help" | "h" | "?" => .help
  | "vars" => .vars
  | "turtle" => .turtle
  | "reset" => .reset
  | "clear" => .clear
  | _ => .unknown line

def greeting : Transcript :=
  .lines ["TurtLang v0.1.0", "Enter statements to run them; :help lists commands.", ""]

def helpLines : List String :=
  ["Commands:",
   "  :help, :h, :?        this list",
   "  :quit, :q, :exit     leave the session",
   "  :vars                program variables and their values",
   "  :turtle              where the turtle is and what it has drawn",
   "  :reset               forget all definitions and send the turtle home",
   "  :clear               clear the terminal",
   "",
   "Definitions persist between lines:",
   "  var side = 50;",
   "  function square(s) \x7b",
   "    for (var i = 0; i < 4; i = i + 1) \x7b forward(s); turn(90); \x7d",
   "  \x7d",
   "  square(side);"]

def clearScreen : String := "\x1b[2J\x1b[1;1H"

/-- Where the turtle is and what it has drawn, in one line. -/
def turtleLine (s : Turtle.Sprite) : String :=
  let pen := if s.penDown then "down" else "up"
  s!"at {s.position.text} heading {Decimal.plain s.heading}°, pen {pen}, colour {s.color.text}, {s.canvas.segments.size} segments, {s.canvas.polygons.size} polygons"

def variableLines (s : Session) : List String :=
  s.visible.map fun v => s!"  {v.name} = {s.world.store.listed v.value}"

/-- The text by which reports name a line of the conversation. -/
def sourceName : String := "<repl>"

/-- Runs a line. What is reported are the problems of this line, and the failure of the last run. -/
def evaluate (sim : Simulation) (line : String) : Simulation × List Report :=
  let sim := sim.runLine line
  (sim, sim.session.diagnostics.map .problem ++ sim.session.failure?.toList.map .failure)

/-- The lines that a program printed since an earlier time. -/
def printedSince (earlier later : Simulation) : List String :=
  later.session.world.printed.toList.drop earlier.session.world.printed.size

/-- What follows from a line: the conversation after it, what is written, and whether it ends. -/
structure Step where
  sim : Simulation
  transcript : Transcript := {}
  stop : Bool := false

def answer (sim : Simulation) : Request → Step
  | .quit => { sim := sim, stop := true }
  | .help => { sim := sim, transcript := .lines helpLines }
  | .vars => { sim := sim, transcript := .lines (variableLines sim.session) }
  | .turtle => { sim := sim, transcript := .lines [turtleLine sim.session.world.sprite] }
  | .reset =>
    { sim := sim.reset, transcript := .lines ["Definitions forgotten, turtle back home."] }
  | .clear => { sim := sim, transcript := { out := clearScreen } }
  | .unknown line => { sim := sim, transcript := .lines [s!"Unknown command {line}; try :help"] }

/-- Takes a line. Blanks around it do not count, and a blank line does nothing. -/
def step (draw : Drawing) (sim : Simulation) (line : String) : Step :=
  let line := Text.trimmed line
  match line.toList with
  | [] => { sim := sim }
  | ':' :: _ => answer sim (.ofLine line)
  | _ =>
    let (after, reports) := evaluate sim line
    { sim := after
      transcript := .lines (printedSince sim after) ++ Report.transcripts draw sourceName line reports }

/-- Everything written in a conversation of the given lines. -/
def converse (draw : Drawing) (sim : Simulation) : List String → Transcript
  | [] => {}
  | line :: lines =>
    let next := step draw sim line
    if next.stop then next.transcript else next.transcript ++ converse draw next.sim lines

end TurtleScript.Shell.Repl
