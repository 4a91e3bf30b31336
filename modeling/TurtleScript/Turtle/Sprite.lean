import TurtleScript.Turtle.Canvas
import TurtleScript.Config

/-!
The turtle. A move takes effect on the canvas at once, while the turtle itself glides there as time
passes; where it is bound to stand is its destination. At speed zero it jumps.
-/

namespace TurtleScript.Turtle

/-- The turtle and what it has drawn. -/
structure Sprite where
  /-- Where the turtle starts. -/
  home : Point
  position : Point
  /-- Degrees clockwise from straight up. -/
  heading : Float := 0.0
  penDown : Bool := true
  visible : Bool := true
  color : Color := {}
  speed : Float
  /-- The speed after a reset. -/
  defaultSpeed : Float
  /-- Where the turtle is gliding to. -/
  target : Option Point := none
  /-- The corners of the polygon being recorded. -/
  polygon : Option (List Point) := none
  canvas : Canvas := {}
deriving Repr, Inhabited

namespace Sprite

def ofConfig (config : Config) : Sprite :=
  let home : Point := ⟨config.screenWidth / 2.0, config.screenHeight / 2.0⟩
  { home := home, position := home, speed := config.turtleSpeed, defaultSpeed := config.turtleSpeed }

def reset (s : Sprite) : Sprite :=
  { home := s.home, position := s.home, speed := s.defaultSpeed, defaultSpeed := s.defaultSpeed }

def gliding (s : Sprite) : Bool := s.target.isSome

/-- Where the turtle stands once it is not on its way any more. -/
def destination (s : Sprite) : Point := s.target.getD s.position

/-- The turtle at the end of its way. -/
def stopGlide (s : Sprite) : Sprite := { s with position := s.destination, target := none }

def update (s : Sprite) (seconds : Float) : Sprite :=
  match s.target with
  | none => s
  | some target =>
    let step := s.speed * seconds
    let remaining := s.position.distance target
    if remaining ≤ step then { s with position := target, target := none }
    else { s with position := s.position.between target (step / remaining) }

/-- Sets out for a point, from the end of any earlier way. With the pen down this draws a segment,
unless the turtle stands there already. -/
def moveTo (s : Sprite) (target : Point) : Sprite :=
  let s := s.stopGlide
  let segments :=
    if s.penDown && target != s.position then s.canvas.segments.push ⟨s.position, target, s.color⟩
    else s.canvas.segments
  let s := { s with canvas := { s.canvas with segments := segments } }
  if 0.0 < s.speed then { s with target := some target } else { s with position := target }

/-- Moves along the heading, or against it for a negative distance. -/
def forward (s : Sprite) (distance : Float) : Sprite :=
  let s := s.stopGlide
  let angle := radians s.heading
  s.moveTo ⟨s.position.x + angle.sin * distance, s.position.y - angle.cos * distance⟩

def setHeading (s : Sprite) (degrees : Float) : Sprite := { s with heading := withinTurn degrees }

/-- Sets the speed; a negative or undefined one counts as zero. -/
def setSpeed (s : Sprite) (speed : Float) : Sprite := { s with speed := greater speed 0.0 }

/-- Starts recording a polygon at the destination, forgetting an unfinished one. -/
def beginPolygon (s : Sprite) : Sprite := { s with polygon := some [s.destination] }

def addVertex (s : Sprite) : Sprite :=
  { s with polygon := s.polygon.map (· ++ [s.destination]) }

def vertexCount (s : Sprite) : Nat := (s.polygon.getD []).length

/-- Ends the polygon, and draws it if it has three corners. -/
def endPolygon (s : Sprite) : Sprite :=
  let polygons :=
    match s.polygon with
    | some vertices =>
      if 3 ≤ vertices.length then s.canvas.polygons.push ⟨vertices, s.color⟩ else s.canvas.polygons
    | none => s.canvas.polygons
  { s with polygon := none, canvas := { s.canvas with polygons := polygons } }

end Sprite

end TurtleScript.Turtle
