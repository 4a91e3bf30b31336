import TurtleScript.Session

/-!
A session taken apart. What a session holds is kept here in slots of their own, each of which can be
filled or empty whatever the state is: a program, an interpreter between runs, a run in progress with
the interpreter inside it, and an outcome. The calls of a host move these around; nothing but the order
of the moves keeps state and slots in step.
-/

namespace TurtleScript

/-- What an interpreter holds. -/
structure Interpreter where
  store : Store
  scope : FrameId := Store.global
  callDepth : Nat := 0

def World.interpreter (w : World) : Interpreter := ⟨w.store,w.scope,w.callDepth⟩

/-- A run in progress, with its interpreter. -/
structure Job where
  interpreter : Interpreter
  /-- How the run goes on. -/
  resume : World → Run Flow
  /-- Whether the run waits for the turtle; one that has not been polled yet does not. -/
  parked : Bool

/-- How the run of a session stands, from inside as well as from outside. -/
inductive RunState where
  | idle
  | ready
  /-- A run is being polled. -/
  | running
  | suspended
  | finished
deriving Repr, DecidableEq

/-- A session by its slots. -/
structure Slots where
  config : Config
  sprite : Turtle.Sprite
  printed : Array String := #[]
  monitor : Monitor := {}
  program : Option Program := none
  diagnostics : List Diagnostic := []
  /-- The interpreter between runs. -/
  interpreter : Option Interpreter := none
  /-- The run in progress. -/
  task : Option Job := none
  state : RunState := .idle
  outcome : Option Outcome := none

namespace Slots

def ofConfig (config : Config) : Slots := { config := config, sprite := .ofConfig config }

/-- The world that an interpreter runs in. -/
def world (s : Slots) (i : Interpreter) : World :=
  { store := i.store
    sprite := s.sprite
    printed := s.printed
    scope := i.scope
    callDepth := i.callDepth
    monitor := s.monitor }

/-- Everything but the interpreter as it is in a world. -/
def take (s : Slots) (w : World) : Slots :=
  { s with sprite := w.sprite, printed := w.printed, monitor := w.monitor }

/-- The list of statements being executed, with how many lists are around it. -/
def block? (s : Slots) : Option (Nat × Cursor) :=
  match s.monitor.blocks with
  | [] => none
  | top :: below => some (below.length,top)

/-- Takes back the interpreter of a run that is over. -/
def finish (s : Slots) (i : Interpreter) (outcome : Outcome) : Slots :=
  { s with
    monitor := { s.monitor with killRequested := false }
    interpreter := some i
    outcome := some outcome
    state := .finished }

def settle (s : Slots) : Run Flow → Slots
  | .done result w => { s.take w with task := none }.finish w.interpreter (.ofResult result)
  | .waiting w resume => { s.take w with task := some ⟨w.interpreter,resume,true⟩, state := .suspended }

/-- Lets the run in progress go on as far as it can. One that waits goes on only when the turtle
stands still or the run is asked to stop. -/
def poll (s : Slots) : Slots :=
  match s.task with
  | none => s
  | some job =>
    let s := { s with state := .running }
    if job.parked && s.sprite.gliding && !s.monitor.killRequested then { s with state := .suspended }
    else s.settle (job.resume (s.world job.interpreter))

/-- Moves the interpreter into a run of the program. -/
def start (s : Slots) : Slots :=
  match s.program, s.interpreter with
  | some program, some i =>
    { s with interpreter := none, task := some ⟨i,program.script s.config,false⟩ }.poll
  | _, _ => s

/-- A fresh interpreter, if the library can be bound in it; says whether it could. -/
def load (s : Slots) : Bool × Slots :=
  let s := { s with interpreter := none, monitor := {}, outcome := none }
  let entries := Library.standard.entries ++ Library.drawing.entries ++ (Library.screen s.config).entries
  match Library.bindEntries Store.global entries {} with
  | (.ok _,store) => (true,{ s with interpreter := some { store := store }, state := .ready })
  | (.error fault,_) => (false,{ s with outcome := some (.failed { fault := fault }), state := .finished })

def kill (s : Slots) : Slots :=
  let s :=
    match s.state with
    | .running | .suspended => { s with monitor := { s.monitor with killRequested := true } }.poll
    | .ready => { s with state := .finished, outcome := some .killed }
    | .idle | .finished => s
  { s with sprite := s.sprite.stopGlide }

def abandon (s : Slots) : Slots := if s.state = .running ∨ s.state = .suspended then s.kill else s

def unload (s : Slots) : Slots :=
  { s.abandon with
    interpreter := none
    program := none
    diagnostics := []
    outcome := none
    monitor := {}
    state := .idle }

def compile (s : Slots) (source : String) : Bool × Slots :=
  let s := s.unload
  match Program.compile source with
  | .ok program => { s with program := some program }.load
  | .error diagnostics => (false,{ s with diagnostics := diagnostics })

def resume (s : Slots) : Slots :=
  if s.state = .suspended ∧ (!s.sprite.gliding || s.monitor.killRequested) then s.poll else s

/-- Starts the program, goes on with it, or starts it afresh. -/
def run (s : Slots) : Slots :=
  match s.state with
  | .ready => s.start
  | .suspended => s.resume
  | .finished =>
    if s.program.isSome then
      let (loaded,s) := s.load
      if loaded then s.start else s
    else s
  | .idle | .running => s

/-- Runs another program on what the interpreter holds, or on a fresh one if there is none. -/
def runOn (s : Slots) (program : Program) : Slots :=
  let (loaded,s) := if s.interpreter.isSome then (true,s) else s.load
  if loaded then { s with program := some program, outcome := none }.start else s

/-- Compiles a line and runs it on what earlier lines have made. -/
def runLine (s : Slots) (source : String) : Slots :=
  let s := s.abandon
  match Program.compile source with
  | .error diagnostics => { s with diagnostics := diagnostics }
  | .ok program => { s with diagnostics := [] }.runOn program

def draw (s : Slots) (f : Turtle.Sprite → Turtle.Sprite) : Slots := { s with sprite := f s.sprite }

end Slots

end TurtleScript
