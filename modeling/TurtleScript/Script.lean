import TurtleScript.World

/-!
Running programs. A run is either over, or it waits for the turtle to finish its way and goes on
from the world its host has made by then. A host lets it go on once the turtle stands still, or
after asking it to stop. Every run is a finite tree, so it waits only finitely often.
-/

namespace TurtleScript

/-- Why a program stops before its end. -/
inductive Interruption where
  | failed (failure : Failure)
  | killed
deriving Repr, DecidableEq

/-- The interruption at a place, unless a place is already known. -/
def Interruption.locate (span : Span) : Interruption → Interruption
  | .failed failure => .failed (failure.locate span)
  | .killed => .killed

/-- A computation in progress. -/
inductive Run (α : Type) where
  /-- It is over, with a result and the world as it leaves it. -/
  | done (result : Except Interruption α) (world : World)
  /-- It waits, and goes on from whatever world it is given. -/
  | waiting (world : World) (resume : World → Run α)

namespace Run

variable {α β : Type}

/-- Another computation behind this one, if it has a result. -/
def andThen (run : Run α) (f : α → World → Run β) : Run β :=
  match run with
  | .done (.ok a) w => f a w
  | .done (.error e) w => .done (.error e) w
  | .waiting w resume => .waiting w fun w => (resume w).andThen f

/-- Changes the world at the end, whatever the end is. -/
def atEnd (run : Run α) (f : World → World) : Run α :=
  match run with
  | .done result w => .done result (f w)
  | .waiting w resume => .waiting w fun w => (resume w).atEnd f

/-- Gives an interruption a place, unless it has one. -/
def locate (span : Span) (run : Run α) : Run α :=
  match run with
  | .done result w => .done (result.mapError (·.locate span)) w
  | .waiting w resume => .waiting w fun w => (resume w).locate span

def world : Run α → World
  | .done _ w | .waiting w _ => w

end Run

def Script (α : Type) : Type := World → Run α

namespace Script

variable {α β : Type}

instance : Monad Script where
  pure a := fun w => .done (.ok a) w
  bind m f := fun w => (m w).andThen f

def look (f : World → α) : Script α := fun w => .done (.ok (f w)) w

def change (f : World → World) : Script Unit := fun w => .done (.ok ()) (f w)

def interrupt (e : Interruption) : Script α := fun w => .done (.error e) w

def fail (fault : Fault) : Script α := interrupt (.failed { fault := fault })

def ofAction (action : Action α) : Script α := fun w =>
  match action.run.run w with
  | (.ok a, w) => .done (.ok a) w
  | (.error fault, w) => .done (.error (.failed { fault := fault })) w

/-- Failures inside are reported at a place, unless they have one. -/
def locate (span : Span) (m : Script α) : Script α := fun w => (m w).locate span

/-- Stops the turtle and the run if the host asked for it. -/
def checkKilled : Script Unit := fun w =>
  if w.monitor.killRequested then .done (.error .killed) { w with sprite := w.sprite.stopGlide }
  else .done (.ok ()) w

def awaitTurtle : Script Unit := fun w =>
  if w.sprite.gliding then .waiting w checkKilled else .done (.ok ()) w

/-- What happens in front of every statement: a request to stop is honoured, the host is told the
scope, and a turtle on its way is waited for. -/
def checkpoint : Script Unit := do
  checkKilled
  change fun w => { w with monitor := { w.monitor with scope := some w.scope } }
  awaitTurtle

/-- Runs statements of a list of the given length in a scope. Scope and list are back to what they
were however it ends. -/
def inBlock (scope : FrameId) (length : Nat) (m : Script α) : Script α := fun w =>
  let outer := w.scope
  (m { w with scope := scope, monitor := w.monitor.enterBlock length }).atEnd fun after =>
    { after with scope := outer, monitor := after.monitor.exitBlock }

/-- Runs the body of a function, one call deeper however it ends. -/
def inCall (m : Script α) : Script α := fun w =>
  let depth := w.callDepth
  (m { w with callDepth := depth + 1 }).atEnd fun after => { after with callDepth := depth }

end Script

end TurtleScript
