import TurtleScript.Program.Compile
import TurtleScript.Evaluate

/-!
A session: a program is compiled, started, waits while the turtle is on its way, goes on, and ends.
A session can also be fed line by line; what one line defines is there for the next.
-/

namespace TurtleScript

inductive Outcome where
  | completed
  | failed (failure : Failure)
  | killed
deriving Repr, DecidableEq

/-- The outcome of a result. A `return` outside of any function just ends the program. -/
def Outcome.ofResult : Except Interruption Flow → Outcome
  | .ok _ => .completed
  | .error (.failed failure) => .failed failure
  | .error .killed => .killed

/-- How far a session is with its program. -/
inductive Phase where
  /-- There is no program. -/
  | idle
  /-- The program has not been started. -/
  | ready (program : Program)
  /-- The program waits for the turtle. -/
  | suspended (program : Program) (resume : World → Run Flow)
  /-- The program has ended. -/
  | finished (program : Program) (outcome : Outcome)

structure Session where
  config : Config
  world : World
  phase : Phase := .idle
  /-- What was wrong with the text compiled last. -/
  diagnostics : List Diagnostic := []

namespace Session

def ofConfig (config : Config) : Session :=
  { config := config, world := { sprite := .ofConfig config } }

/-- The states of a session as its host sees them. -/
inductive State where
  | idle | ready | suspended | finished
deriving Repr, DecidableEq

def state (s : Session) : State :=
  match s.phase with
  | .idle => .idle
  | .ready _ => .ready
  | .suspended _ _ => .suspended
  | .finished _ _ => .finished

def program? (s : Session) : Option Program :=
  match s.phase with
  | .idle => none
  | .ready program | .suspended program _ | .finished program _ => some program

def outcome? (s : Session) : Option Outcome :=
  match s.phase with
  | .finished _ outcome => some outcome
  | _ => none

/-- The failure that ended the last run. -/
def failure? (s : Session) : Option Failure :=
  match s.outcome? with
  | some (.failed failure) => some failure
  | _ => none

/-- Whether the last compilation or the last run went wrong. -/
def hadError (s : Session) : Bool := !s.diagnostics.isEmpty || s.failure?.isSome

def gliding (s : Session) : Bool := s.world.sprite.gliding

/-- The list of statements being executed, with how many lists are around it. -/
def block? (s : Session) : Option (Nat × Cursor) :=
  match s.world.monitor.blocks with
  | [] => none
  | top :: below => some (below.length, top)

/-- The variables at the statement being executed, or the global ones when no run is on. -/
def visible (s : Session) : List Store.Variable :=
  s.world.store.visible (s.world.monitor.scope.getD Store.global)

def draw (s : Session) (f : Turtle.Sprite → Turtle.Sprite) : Session :=
  { s with world := { s.world with sprite := f s.world.sprite } }

/-- Takes over where a run has got to. -/
def settleIn (s : Session) (program : Program) : Run Flow → Session
  | .done result world =>
    { s with
      world := { world with monitor := { world.monitor with killRequested := false } }
      phase := .finished program (.ofResult result) }
  | .waiting world resume => { s with world := world, phase := .suspended program resume }

/-- Starts a program in the world as it is. -/
def start (s : Session) (program : Program) : Session :=
  s.settleIn program (program.script s.config s.world)

/-- The session with a fresh store that holds the library and nothing else. -/
def refresh (s : Session) : Session :=
  { s with
    world := { sprite := s.world.sprite, printed := s.world.printed, store := .initial s.config } }

/-- Stops the run. One that waits ends at once, one that has not been started never starts. The
turtle stands still afterwards. -/
def kill (s : Session) : Session :=
  let stopped :=
    match s.phase with
    | .suspended program resume =>
      s.settleIn program
        (resume { s.world with monitor := { s.world.monitor with killRequested := true } })
    | .ready program => { s with phase := .finished program .killed }
    | _ => s
  stopped.draw (·.stopGlide)

/-- Stops a run that waits; leaves any other session as it is. -/
def abandon (s : Session) : Session :=
  match s.phase with
  | .suspended _ _ => s.kill
  | _ => s

/-- Forgets the program and everything it made. -/
def unload (s : Session) : Session :=
  let s := s.abandon
  { s with
    world := { sprite := s.world.sprite, printed := s.world.printed }
    phase := .idle
    diagnostics := [] }

/-- Compiles a text and makes it ready to run, in place of any earlier program; says whether it
compiled. -/
def compile (s : Session) (source : String) : Bool × Session :=
  let s := s.unload
  match Program.compile source with
  | .ok program => (true, { s.refresh with phase := .ready program })
  | .error diagnostics => (false, { s with diagnostics := diagnostics })

/-- Goes on with a run that waits, unless the turtle is still on its way. -/
def resume (s : Session) : Session :=
  match s.phase with
  | .suspended program resume =>
    if s.gliding && !s.world.monitor.killRequested then s else s.settleIn program (resume s.world)
  | _ => s

/-- Starts the program, goes on with it, or starts it afresh if it has ended. -/
def run (s : Session) : Session :=
  match s.phase with
  | .idle => s
  | .ready program => s.start program
  | .suspended _ _ => s.resume
  | .finished program _ => s.refresh.start program

/-- Compiles a line and runs it on what earlier lines have made. A line that does not compile
changes nothing but the diagnostics, apart from stopping a run that waits. -/
def runLine (s : Session) (source : String) : Session :=
  let s := s.abandon
  match Program.compile source with
  | .error diagnostics => { s with diagnostics := diagnostics }
  | .ok program =>
    let s := { s with diagnostics := [] }
    match s.phase with
    | .idle => s.refresh.start program
    | _ => s.start program

end Session

end TurtleScript
