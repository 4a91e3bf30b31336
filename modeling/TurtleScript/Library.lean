import TurtleScript.World
import TurtleScript.Store.Text
import TurtleScript.Store.Item
import TurtleScript.Text.Blank
import TurtleScript.Decimal.Reading

/-!
The library: what its functions do, and the tables by which programs find them. A function that
rejects its arguments leaves everything as it was, except that ending a polygon of too few corners
still ends it.
-/

namespace TurtleScript

namespace Builtin

open Turtle (radians lesser greater)

/-- A number among the arguments of a function. -/
def expectNumber (function : Builtin) (value : Value) : Action Float :=
  match value with
  | .number x => return x
  | other => .fail (.typeError s!"{function.name}() expects a number, got {other.typeName}.")

/-- An array among the arguments of a function. -/
def expectArray (function : Builtin) (value : Value) : Action ArrayId :=
  match value with
  | .array id => return id
  | _ => .fail (.invalidArgument function.name "requires an array.")

def expectComponent (function : Builtin) (value : Value) : Action UInt8 := do
  let x ← expectNumber function value
  match Decimal.integer? x with
  | some n =>
    if 0 ≤ n ∧ n ≤ 255 then return n.toNat.toUInt8
    else .fail (.invalidArgument function.name "components must be whole numbers from 0 to 255.")
  | none => .fail (.invalidArgument function.name "components must be whole numbers from 0 to 255.")

def ofCount (n : Nat) : Value := .number (Float.ofNat n)

/-- How many items an array has, or characters a text. -/
def sizeOf (value : Value) : Action Value :=
  match value with
  | .array id => return ofCount (← Action.read (·.items id)).length
  | .text text => return ofCount text.length
  | _ => .fail (.invalidArgument "size" "requires an array or a string.")

/-- The finite number that a text holds, apart from blanks around it; null for any other text. -/
def numberOf (value : Value) : Value :=
  match value with
  | .number x => .number x
  | .text text =>
    match Decimal.read? (Text.trimmed text) with
    | some x => if x.isFinite then .number x else .null
    | none => .null
  | _ => .null

/-- What a function of the library does with its arguments. -/
def apply (function : Builtin) (args : List Value) : Action Value := do
  match function, args with
  | .print, [value] =>
    let line ← Action.read (·.shown value)
    Action.print line
    return .null
  | .size, [value] => sizeOf value
  | .pushBack, [array, value] =>
    let id ← expectArray function array
    return ofCount (← Action.renew (·.pushBack id value))
  | .pushFront, [array, value] =>
    let id ← expectArray function array
    return ofCount (← Action.renew (·.pushFront id value))
  | .popBack, [array] =>
    let id ← expectArray function array
    Action.renew (·.popBack id)
  | .popFront, [array] =>
    let id ← expectArray function array
    Action.renew (·.popFront id)
  | .get, [array, index] =>
    let id ← expectArray function array
    Action.inquire fun store => do store.item id (← positionOf index)
  | .set, [array, index, value] =>
    let id ← expectArray function array
    Action.revise fun store => do store.setItem id (← positionOf index) value
    return value
  | .toString, [value] => return .text (← Action.read (·.shown value))
  | .toNumber, [value] => return numberOf value
  | .floor, [x] => return .number (← expectNumber function x).floor
  | .round, [x] => return .number (← expectNumber function x).round
  | .abs, [x] => return .number (← expectNumber function x).abs
  | .sqrt, [x] =>
    let x ← expectNumber function x
    if x < 0.0 then .fail (.invalidArgument function.name "requires a non-negative number.")
    else return .number x.sqrt
  | .sin, [x] => return .number (radians (← expectNumber function x)).sin
  | .cos, [x] => return .number (radians (← expectNumber function x)).cos
  | .min, [x, y] =>
    let x ← expectNumber function x
    let y ← expectNumber function y
    return .number (lesser x y)
  | .max, [x, y] =>
    let x ← expectNumber function x
    let y ← expectNumber function y
    return .number (greater x y)
  | .getX, [] => return .number (← Action.observe (·.position.x))
  | .getY, [] => return .number (← Action.observe (·.position.y))
  | .setPos, [x, y] =>
    let x ← expectNumber function x
    let y ← expectNumber function y
    Action.draw (·.moveTo ⟨x, y⟩)
    return .null
  | .forward, [distance] =>
    let distance ← expectNumber function distance
    Action.draw (·.forward distance)
    return .null
  | .back, [distance] =>
    let distance ← expectNumber function distance
    Action.draw (·.forward (-distance))
    return .null
  | .getAngle, [] => return .number (← Action.observe (·.heading))
  | .setAngle, [degrees] =>
    let degrees ← expectNumber function degrees
    Action.draw (·.setHeading degrees)
    return .null
  | .turn, [degrees] =>
    let degrees ← expectNumber function degrees
    Action.draw fun s => s.setHeading (s.heading + degrees)
    return .null
  | .hide, [] => Action.draw ({ · with visible := false }); return .null
  | .show, [] => Action.draw ({ · with visible := true }); return .null
  | .penUp, [] => Action.draw ({ · with penDown := false }); return .null
  | .penDown, [] => Action.draw ({ · with penDown := true }); return .null
  | .setColor, [red, green, blue] =>
    let red ← expectComponent function red
    let green ← expectComponent function green
    let blue ← expectComponent function blue
    Action.draw ({ · with color := ⟨red, green, blue⟩ })
    return .null
  | .setSpeed, [speed] =>
    let speed ← expectNumber function speed
    if speed < 0.0 || !speed.isFinite then
      .fail (.invalidArgument function.name "requires a finite, non-negative speed.")
    else
      Action.draw (·.setSpeed speed)
      return .null
  | .beginPoly, [] => Action.draw (·.beginPolygon); return .null
  | .addVertex, [] =>
    if ← Action.observe (·.polygon.isSome) then
      Action.draw (·.addVertex)
      return .null
    else .fail (.invalidArgument function.name "called before beginPoly().")
  | .endPoly, [] =>
    let count ← Action.observe (·.vertexCount)
    Action.draw (·.endPolygon)
    if count < 3 then
      .fail (.invalidArgument function.name s!"needs at least 3 vertices, got {count}.")
    else return .null
  | _, _ => .fail (.arityMismatch function.name function.arity args.length)

end Builtin

/-- A table of the library. -/
structure Library where
  name : String
  /-- What the table binds, in order. -/
  entries : List (String × Value)

namespace Library

/-- The ratio of a circle's circumference to its diameter. -/
def pi : Float := 3.14159265358979323846264338327950288

def functions (table : List Builtin) : List (String × Value) :=
  table.map fun function => (function.name, .function (.builtin function))

def standard : Library :=
  { name := "standard", entries := functions Builtin.standard ++ [("PI", .number pi)] }

def drawing : Library := { name := "drawing", entries := functions Builtin.drawing }

def screen (config : Config) : Library :=
  { name := "screen"
    entries := [("screenWidth", .number config.screenWidth), ("screenHeight", .number config.screenHeight)] }

/-- Binds entries in a scope one after the other. Those in front of one that cannot be bound stay. -/
def bindEntries (scope : FrameId) : List (String × Value) → Store → Except Fault Unit × Store
  | [], store => (.ok (), store)
  | (name, value) :: entries, store =>
    match store.define scope { name := name, value := value, library := true } with
    | .ok store => bindEntries scope entries store
    | .error fault => (.error fault, store)

def bind (library : Library) (scope : FrameId) (store : Store) : Except Fault Unit × Store :=
  bindEntries scope library.entries store

end Library

/-- The store of a program that has not begun: the global scope holds the library. -/
def Store.initial (config : Config) : Store :=
  let entries := Library.standard.entries ++ Library.drawing.entries ++ (Library.screen config).entries
  (Library.bindEntries global entries {}).2

end TurtleScript
