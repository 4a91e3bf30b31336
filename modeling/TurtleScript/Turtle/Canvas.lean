import TurtleScript.Turtle.Arithmetic
import TurtleScript.Decimal.Notation

/-!
What the turtle leaves behind: line segments and filled polygons in colours.
-/

namespace TurtleScript.Turtle

/-- A point of the plane. The second coordinate grows downwards. -/
structure Point where
  x : Float
  y : Float
deriving Repr, BEq, Inhabited

namespace Point

def distance (a b : Point) : Float := hypotenuse (b.x - a.x) (b.y - a.y)

/-- The point a part `t` of the way from one point to another. -/
def between (a b : Point) (t : Float) : Point := ⟨a.x + (b.x - a.x) * t, a.y + (b.y - a.y) * t⟩

/-- A point with one decimal place for each coordinate. -/
def text (p : Point) : String := s!"({Decimal.fixed 1 p.x}, {Decimal.fixed 1 p.y})"

end Point

/-- A colour by its red, green and blue parts. -/
structure Color where
  red : UInt8 := 0
  green : UInt8 := 0
  blue : UInt8 := 0
deriving Repr, DecidableEq, Inhabited

namespace Color

def hexPair (part : UInt8) : String :=
  let digits := String.ofList (Nat.toDigits 16 part.toNat)
  Decimal.zeros (2 - digits.length) ++ digits

def text (c : Color) : String := "#" ++ hexPair c.red ++ hexPair c.green ++ hexPair c.blue

end Color

/-- A line drawn by a move with the pen down. -/
structure Segment where
  start : Point
  stop : Point
  color : Color
deriving Repr, BEq

structure Polygon where
  vertices : List Point
  color : Color
deriving Repr, BEq

/-- Everything drawn so far, in order. -/
structure Canvas where
  segments : Array Segment := #[]
  polygons : Array Polygon := #[]
deriving Repr, BEq, Inhabited

namespace Canvas

def isEmpty (c : Canvas) : Bool := c.segments.isEmpty && c.polygons.isEmpty

/-- The length of all segments together. The sum starts from negative zero, to which adding any
number gives just that number. -/
def ink (c : Canvas) : Float :=
  c.segments.foldl (fun sum s => sum + s.start.distance s.stop) (-0.0)

end Canvas

end TurtleScript.Turtle
