/-!
Settings of a run.
-/

namespace TurtleScript

structure Config where
  /-- Width of the screen, which programs see as `screenWidth`. -/
  screenWidth : Float := 1280.0
  /-- Height of the screen, which programs see as `screenHeight`. -/
  screenHeight : Float := 720.0
  /-- How far the turtle glides in a second; it jumps when this is zero. -/
  turtleSpeed : Float := 250.0
  /-- How many rounds a loop may run: a machine word, as is the count of the rounds that a loop has begun.
  The greatest word is no limit, since no count gets beyond it. -/
  maxLoopIterations : Nat := 250
  /-- How many function calls may be nested. -/
  maxCallDepth : Nat := 1000
deriving Repr, BEq, Inhabited

end TurtleScript
