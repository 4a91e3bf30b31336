import TurtleScript.Program
import TurtleScript.Library.Builtin

/-!
Values of a running program. Numbers, texts, truth values and null are what they are; arrays and
functions have an identity, and two of them are equal only if they are one and the same.
-/

namespace TurtleScript

/-- The identity of a scope. -/
abbrev FrameId := Nat

/-- The identity of an array. -/
abbrev ArrayId := Nat

/-- A function declared by a program, with the scope it was declared in. -/
structure Closure where
  /-- Tells apart functions that stem from one declaration. -/
  id : Nat
  name : Name
  params : List Name
  body : List Stmt
  scope : FrameId
deriving Repr, Inhabited

/-- What can be called. -/
inductive Function where
  | builtin (function : Builtin)
  | declared (function : Closure)
deriving Repr, Inhabited

namespace Function

def name : Function → String
  | .builtin b => b.name
  | .declared c => c.name.text

def arity : Function → Nat
  | .builtin b => b.arity
  | .declared c => c.params.length

/-- Whether two functions are one and the same. -/
def same : Function → Function → Bool
  | .builtin a, .builtin b => a == b
  | .declared a, .declared b => a.id == b.id
  | _, _ => false

end Function

/-- A value of a running program. -/
inductive Value where
  | number (value : Float)
  | text (value : String)
  | bool (value : Bool)
  | null
  | array (id : ArrayId)
  | function (function : Function)
deriving Repr, Inhabited

namespace Value

def ofLiteral : Literal → Value
  | .number value => .number value
  | .text value => .text value
  | .bool value => .bool value
  | .null => .null

/-- Everything counts as true except null, false and zero. -/
def truthy : Value → Bool
  | .null => false
  | .bool value => value
  | .number value => value != 0.0
  | _ => true

def typeName : Value → String
  | .number _ => "number"
  | .text _ => "string"
  | .bool _ => "boolean"
  | .null => "null"
  | .array _ => "array"
  | .function _ => "function"

def number? : Value → Option Float
  | .number value => some value
  | _ => none

def text? : Value → Option String
  | .text value => some value
  | _ => none

def equal : Value → Value → Bool
  | .number a, .number b => a == b
  | .text a, .text b => a == b
  | .bool a, .bool b => a == b
  | .null, .null => true
  | .array a, .array b => a == b
  | .function a, .function b => a.same b
  | _, _ => false

end Value

end TurtleScript
