import TurtleScript.Store.Scope
import TurtleScript.Turtle.Sprite

/-!
Everything a running program can see and change: what it holds, the turtle, what it printed, where
in the program it is, and what its host is told about that.
-/

namespace TurtleScript

/-- A place in a list of statements being executed. -/
structure Cursor where
  /-- How many statements the list has. -/
  length : Nat
  /-- The statement being executed, counted from zero. -/
  index : Nat := 0
  span : Option Span := none
deriving Repr, DecidableEq, Inhabited

/-- What a run and its host tell each other. -/
structure Monitor where
  /-- Whether the host asked the run to stop. -/
  killRequested : Bool := false
  /-- The lists of statements being executed, innermost first. -/
  blocks : List Cursor := []
  /-- The scope whose variables the host shows. -/
  scope : Option FrameId := none
deriving Repr, DecidableEq, Inhabited

namespace Monitor

/-- The monitor at the start of a list of statements. -/
def enterBlock (m : Monitor) (length : Nat) : Monitor :=
  { m with blocks := { length := length } :: m.blocks }

def exitBlock (m : Monitor) : Monitor := { m with blocks := m.blocks.tail }

def atStatement (m : Monitor) (index : Nat) (span : Span) : Monitor :=
  match m.blocks with
  | [] => m
  | top :: below => { m with blocks := { top with index := index, span := some span } :: below }

end Monitor

/-- The state of a running program. -/
structure World where
  store : Store := {}
  sprite : Turtle.Sprite
  /-- The lines printed so far. -/
  printed : Array String := #[]
  /-- The scope of the statement being executed. -/
  scope : FrameId := Store.global
  /-- How many function calls are being executed. -/
  callDepth : Nat := 0
  monitor : Monitor := {}
deriving Repr, Inhabited

/-- A step that changes the world and succeeds or fails. -/
abbrev Action := ExceptT Fault (StateM World)

namespace Action

def fail {α : Type} (fault : Fault) : Action α := throw fault

def read {α : Type} (f : Store → α) : Action α := do return f (← get).store

/-- A result of the store that may be a fault. -/
def inquire {α : Type} (f : Store → Except Fault α) : Action α := do
  match f (← get).store with
  | .ok a => return a
  | .error fault => fail fault

def renew {α : Type} (f : Store → α × Store) : Action α :=
  modifyGet fun ⟨store, sprite, printed, scope, callDepth, monitor⟩ =>
    let (a, store) := f store
    (a, ⟨store, sprite, printed, scope, callDepth, monitor⟩)

def alter (f : Store → Store) : Action Unit := renew fun store => ((), f store)

/-- A change of the store that may fail, and then leaves it as it is. -/
def revise (f : Store → Except Fault Store) : Action Unit := do
  let store ← inquire f
  alter fun _ => store

def draw (f : Turtle.Sprite → Turtle.Sprite) : Action Unit :=
  modify fun ⟨store, sprite, printed, scope, callDepth, monitor⟩ =>
    ⟨store, f sprite, printed, scope, callDepth, monitor⟩

def print (line : String) : Action Unit :=
  modify fun ⟨store, sprite, printed, scope, callDepth, monitor⟩ =>
    ⟨store, sprite, printed.push line, scope, callDepth, monitor⟩

/-- Binds a new name in a scope. -/
def define (scope : FrameId) (name : String) (value : Value) : Action Unit := do
  inquire (·.definable scope name)
  alter (·.bind scope { name := name, value := value })

/-- Gives the nearest binding of a name another value. -/
def assign (scope : FrameId) (name : String) (value : Value) : Action Unit := do
  let holder ← inquire (·.assignable scope name)
  alter (·.put holder name value)

def observe {α : Type} (f : Turtle.Sprite → α) : Action α := do return f (← get).sprite

end Action

end TurtleScript
