/-!
The functions of the library by name. The standard ones are about output, arrays, strings and
numbers; the drawing ones drive the turtle.
-/

namespace TurtleScript

/-- A function of the library. -/
inductive Builtin where
  | print | size | pushBack | pushFront | popBack | popFront | get | set | toString | toNumber
  | floor | round | abs | sqrt | sin | cos | min | max
  | getX | getY | setPos | forward | back | getAngle | setAngle | turn | hide | show | penUp | penDown
  | setColor | setSpeed | beginPoly | addVertex | endPoly
deriving Repr, DecidableEq, Inhabited

namespace Builtin

/-- The functions of the standard table, in its order. -/
def standard : List Builtin :=
  [.print, .size, .pushBack, .pushFront, .popBack, .popFront, .get, .set, .toString, .toNumber,
   .floor, .round, .abs, .sqrt, .sin, .cos, .min, .max]

/-- The functions of the drawing table, in its order. -/
def drawing : List Builtin :=
  [.getX, .getY, .setPos, .forward, .back, .getAngle, .setAngle, .turn, .hide, .show, .penUp,
   .penDown, .setColor, .setSpeed, .beginPoly, .addVertex, .endPoly]

/-- The name by which programs call the function. -/
def name : Builtin → String
  | .print => "print"
  | .size => "size"
  | .pushBack => "pushBack"
  | .pushFront => "pushFront"
  | .popBack => "popBack"
  | .popFront => "popFront"
  | .get => "get"
  | .set => "set"
  | .toString => "toString"
  | .toNumber => "toNumber"
  | .floor => "floor"
  | .round => "round"
  | .abs => "abs"
  | .sqrt => "sqrt"
  | .sin => "sin"
  | .cos => "cos"
  | .min => "min"
  | .max => "max"
  | .getX => "getX"
  | .getY => "getY"
  | .setPos => "setPos"
  | .forward => "forward"
  | .back => "back"
  | .getAngle => "getAngle"
  | .setAngle => "setAngle"
  | .turn => "turn"
  | .hide => "hide"
  | .show => "show"
  | .penUp => "penUp"
  | .penDown => "penDown"
  | .setColor => "setColor"
  | .setSpeed => "setSpeed"
  | .beginPoly => "beginPoly"
  | .addVertex => "addVertex"
  | .endPoly => "endPoly"

def arity : Builtin → Nat
  | .getX | .getY | .getAngle | .hide | .show | .penUp | .penDown | .beginPoly | .addVertex
  | .endPoly => 0
  | .print | .size | .popBack | .popFront | .toString | .toNumber | .floor | .round | .abs | .sqrt
  | .sin | .cos | .forward | .back | .setAngle | .turn | .setSpeed => 1
  | .pushBack | .pushFront | .get | .min | .max | .setPos => 2
  | .set | .setColor => 3

/-- Every function stands in one of the two tables. -/
theorem mem_standard_or_drawing (b : Builtin) : b ∈ standard ∨ b ∈ drawing := by
  cases b <;> decide

end Builtin

end TurtleScript
