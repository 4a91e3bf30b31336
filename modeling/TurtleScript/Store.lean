import TurtleScript.Value
import TurtleScript.Fault
import TurtleScript.Text.Quoted

/-!
What a running program holds by reference: its scopes and its arrays. Both are reached by identity,
and identities are handed out in order and never again.
-/

namespace TurtleScript

/-- A name and what it stands for. -/
structure Binding where
  name : String
  value : Value
  /-- Whether the library installed it; programs can then neither redefine nor assign it. -/
  library : Bool := false
deriving Repr, Inhabited

/-- A scope: its own bindings, and the scopes around it, nearest first. The last one is the global
scope. -/
structure Frame where
  bindings : List Binding := []
  outer : List FrameId := []
deriving Repr, Inhabited

namespace Frame

/-- The binding of a name in this scope alone. -/
def find? (frame : Frame) (name : String) : Option Binding :=
  frame.bindings.find? (·.name = name)

def binds (frame : Frame) (name : String) : Bool := (frame.find? name).isSome

def insert (frame : Frame) (binding : Binding) : Frame :=
  { frame with bindings := frame.bindings ++ [binding] }

/-- The scope with another value for a name it binds. -/
def assign (frame : Frame) (name : String) (value : Value) : Frame :=
  { frame with
    bindings := frame.bindings.map fun b => if b.name = name then { b with value := value } else b }

end Frame

/-- The scopes and arrays of a program. -/
structure Store where
  frames : Array Frame := #[{}]
  arrays : Array (List Value) := #[]
  /-- How many functions were declared so far. -/
  closures : Nat := 0
deriving Repr, Inhabited

namespace Store

/-- The scope that all others are in. -/
def global : FrameId := 0

def frame (store : Store) (id : FrameId) : Frame := store.frames.getD id {}

def changeFrame (store : Store) (id : FrameId) (f : Frame → Frame) : Store :=
  { store with frames := store.frames.modify id f }

/-- A scope and all around it, from the inside out. -/
def chain (store : Store) (id : FrameId) : List FrameId := id :: (store.frame id).outer

def child (store : Store) (parent : FrameId) : FrameId × Store :=
  (store.frames.size, { store with frames := store.frames.push { outer := store.chain parent } })

def items (store : Store) (id : ArrayId) : List Value := store.arrays.getD id []

def setItems (store : Store) (id : ArrayId) (items : List Value) : Store :=
  { store with arrays := store.arrays.modify id fun _ => items }

def newArray (store : Store) (items : List Value) : Value × Store :=
  (.array store.arrays.size, { store with arrays := store.arrays.push items })

def newClosure (store : Store) (scope : FrameId) (name : Name) (params : List Name)
    (body : List Stmt) : Value × Store :=
  (.function (.declared ⟨store.closures, name, params, body, scope⟩),
    { store with closures := store.closures + 1 })

end Store

end TurtleScript
