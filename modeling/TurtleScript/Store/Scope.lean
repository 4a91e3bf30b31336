import TurtleScript.Store

/-!
Names and scopes. A name stands for its nearest binding, from the scope outwards. Names that the
library binds in the global scope cannot be bound anywhere else, and a library binding cannot be
assigned.
-/

namespace TurtleScript.Store

def holder? (store : Store) (id : FrameId) (name : String) : Option FrameId :=
  (store.chain id).find? fun f => (store.frame f).binds name

def binding? (store : Store) (id : FrameId) (name : String) : Option Binding :=
  (store.chain id).findSome? fun f => (store.frame f).find? name

/-- What a name stands for in a scope. -/
def get (store : Store) (id : FrameId) (name : String) : Except Fault Value :=
  match store.binding? id name with
  | some binding => .ok binding.value
  | none => .error (.undefinedVariable name)

def rootOf (store : Store) (id : FrameId) : FrameId := (store.chain id).getLastD id

/-- Whether the library binds a name in the global scope. -/
def isProtected (store : Store) (id : FrameId) (name : String) : Bool :=
  ((store.frame (store.rootOf id)).find? name).any Binding.library

/-- Whether a name may be bound in a scope: the library does not own it, and it is not bound there. -/
def definable (store : Store) (id : FrameId) (name : String) : Except Fault Unit :=
  if store.isProtected id name then .error (.protectedName name)
  else if (store.frame id).binds name then .error (.redefinition name)
  else .ok ()

/-- The store with another binding in a scope. -/
def bind (store : Store) (id : FrameId) (binding : Binding) : Store :=
  store.changeFrame id (·.insert binding)

/-- Binds a new name in a scope. -/
def define (store : Store) (id : FrameId) (binding : Binding) : Except Fault Store :=
  match store.definable id binding.name with
  | .ok _ => .ok (store.bind id binding)
  | .error fault => .error fault

/-- The scope that holds the nearest binding of a name, if that may be assigned. -/
def assignable (store : Store) (id : FrameId) (name : String) : Except Fault FrameId :=
  match store.holder? id name with
  | none => .error (.undefinedVariable name)
  | some f =>
    if ((store.frame f).find? name).any Binding.library then .error (.protectedName name) else .ok f

/-- The store with another value for a name that a scope binds. -/
def put (store : Store) (id : FrameId) (name : String) (value : Value) : Store :=
  store.changeFrame id (·.assign name value)

/-- Gives the nearest binding of a name another value. -/
def assign (store : Store) (id : FrameId) (name : String) (value : Value) : Except Fault Store :=
  match store.assignable id name with
  | .ok f => .ok (store.put f name value)
  | .error fault => .error fault

def clear (store : Store) (id : FrameId) : Store :=
  store.changeFrame id fun frame => { frame with bindings := [] }

/-- A variable of the program as it is listed. -/
structure Variable where
  name : String
  value : Value
  /-- How many scopes lie between the binding and the innermost scope. -/
  depth : Nat
  /-- Whether a scope further out binds the name as well. -/
  shadows : Bool
deriving Repr

/-- The program's own bindings in a scope, by name. -/
def ownBindings (frame : Frame) : List Binding :=
  (frame.bindings.filter (!·.library)).mergeSort fun a b => decide (a.name ≤ b.name)

/-- The variables in a chain of scopes, leaving out names already seen. -/
def visibleFrom (store : Store) (depth : Nat) (seen : List String) :
    List FrameId → List Variable
  | [] => []
  | f :: outer =>
    let own := (ownBindings (store.frame f)).filter fun b => !seen.contains b.name
    let listed := own.map fun b =>
      { name := b.name, value := b.value, depth := depth
        shadows := outer.any fun g => (store.frame g).binds b.name }
    listed ++ store.visibleFrom (depth + 1) (seen ++ own.map Binding.name) outer

/-- The variables visible in a scope, from the inside out and by name within a scope. A hidden
variable is not listed, and neither is what the library binds. -/
def visible (store : Store) (id : FrameId) : List Variable :=
  store.visibleFrom 0 [] (store.chain id)

end TurtleScript.Store
