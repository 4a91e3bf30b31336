import TurtleScript.Turtle.Sprite

/-!
What the turtle draws. Gliding is for the eye only: on the canvas the turtle does what one does that knows neither
speed nor time and is at once wherever it is sent (`Jumper`). A turtle is such a jumper if only its destination is
looked at (`Sprite.jumper`), and every operation keeps it one (`perform_jumper`), so after any operations the two have
drawn, recorded and answered the same (`draws_as_jumper`). No arithmetic is used but that both do the same.
-/

namespace TurtleScript.Turtle

/-- One operation on a turtle. -/
inductive Operation where
  | forward (distance : Float)
  | setPosition (point : Point)
  | setHeading (degrees : Float)
  | setPenDown (down : Bool)
  | setVisible (visible : Bool)
  | setColor (color : Color)
  | setSpeed (speed : Float)
  | beginPolygon
  | addVertex
  | endPolygon
  | update (seconds : Float)
  | stopGlide
  | reset

/-- What an operation answers. -/
inductive Answer where
  | nothing
  /-- Whether a corner was recorded. -/
  | recorded (corner : Bool)
  /-- How many corners the polygon had. -/
  | corners (count : Nat)
deriving DecidableEq

/-- The answer and the turtle behind an operation. -/
def Sprite.perform (s : Sprite) : Operation → Answer × Sprite
  | .forward distance => (.nothing,s.forward distance)
  | .setPosition point => (.nothing,s.moveTo point)
  | .setHeading degrees => (.nothing,s.setHeading degrees)
  | .setPenDown down => (.nothing,{ s with penDown := down })
  | .setVisible visible => (.nothing,{ s with visible := visible })
  | .setColor color => (.nothing,{ s with color := color })
  | .setSpeed speed => (.nothing,s.setSpeed speed)
  | .beginPolygon => (.nothing,s.beginPolygon)
  | .addVertex => (.recorded s.polygon.isSome,s.addVertex)
  | .endPolygon => (.corners s.vertexCount,s.endPolygon)
  | .update seconds => (.nothing,s.update seconds)
  | .stopGlide => (.nothing,s.stopGlide)
  | .reset => (.nothing,s.reset)

/-- The answers to operations one after the other, and the turtle behind them. -/
def Sprite.performAll (s : Sprite) : List Operation → List Answer × Sprite
  | [] => ([],s)
  | op :: ops =>
    let (answers,last) := (s.perform op).2.performAll ops
    ((s.perform op).1 :: answers,last)

/-- A turtle without speed and without a way: it is where it was sent. -/
structure Jumper where
  home : Point
  position : Point
  heading : Float := 0.0
  penDown : Bool := true
  visible : Bool := true
  color : Color := {}
  /-- The corners of the polygon being recorded. -/
  polygon : Option (List Point) := none
  canvas : Canvas := {}

namespace Jumper

/-- A jumper in the middle of the screen. -/
def ofConfig (config : Config) : Jumper :=
  let home : Point := ⟨config.screenWidth / 2.0,config.screenHeight / 2.0⟩
  { home := home, position := home }

def ahead (j : Jumper) (distance : Float) : Point :=
  ⟨j.position.x + (radians j.heading).sin * distance,j.position.y - (radians j.heading).cos * distance⟩

/-- The jumper at a point, with a line drawn from where it was if its pen is down and the point is another one. -/
def jump (j : Jumper) (point : Point) : Jumper :=
  if j.penDown && point != j.position then
    { j with
      position := point
      canvas := { j.canvas with segments := j.canvas.segments.push ⟨j.position,point,j.color⟩ } }
  else { j with position := point }

/-- The jumper without its polygon, which is drawn if it has three corners. -/
def endPolygon (j : Jumper) : Jumper :=
  match j.polygon with
  | none => j
  | some vertices =>
    if 3 ≤ vertices.length then
      { j with
        polygon := none
        canvas := { j.canvas with polygons := j.canvas.polygons.push ⟨vertices,j.color⟩ } }
    else { j with polygon := none }

/-- The answer and the jumper behind an operation. Speed, time and a way to go on are nothing to it. -/
def perform (j : Jumper) : Operation → Answer × Jumper
  | .forward distance => (.nothing,j.jump (j.ahead distance))
  | .setPosition point => (.nothing,j.jump point)
  | .setHeading degrees => (.nothing,{ j with heading := withinTurn degrees })
  | .setPenDown down => (.nothing,{ j with penDown := down })
  | .setVisible visible => (.nothing,{ j with visible := visible })
  | .setColor color => (.nothing,{ j with color := color })
  | .beginPolygon => (.nothing,{ j with polygon := some [j.position] })
  | .addVertex => (.recorded j.polygon.isSome,{ j with polygon := j.polygon.map (· ++ [j.position]) })
  | .endPolygon => (.corners (j.polygon.getD []).length,j.endPolygon)
  | .setSpeed _ | .update _ | .stopGlide => (.nothing,j)
  | .reset => (.nothing,{ home := j.home, position := j.home })

/-- The answers to operations one after the other, and the jumper behind them. -/
def performAll (j : Jumper) : List Operation → List Answer × Jumper
  | [] => ([],j)
  | op :: ops =>
    let (answers,last) := (j.perform op).2.performAll ops
    ((j.perform op).1 :: answers,last)

/-- Where an operation sends the jumper, if it is a move. -/
def goal (j : Jumper) : Operation → Option Point
  | .forward distance => some (j.ahead distance)
  | .setPosition point => some point
  | _ => none

end Jumper

/-! ### One operation -/

namespace Sprite

/-- The jumper that a turtle is if only its destination is looked at. -/
def jumper (s : Sprite) : Jumper where
  home := s.home
  position := s.destination
  heading := s.heading
  penDown := s.penDown
  visible := s.visible
  color := s.color
  polygon := s.polygon
  canvas := s.canvas

theorem jumper_update (s : Sprite) (seconds : Float) : (s.update seconds).jumper = s.jumper := by
  unfold update
  cases way : s.target with
  | none => rfl
  | some target =>
    have bound : s.destination = target := by simp [destination,way]
    dsimp only
    split
    · rw [jumper,jumper,bound]
      rfl
    · rw [jumper,jumper,bound]
      simp [destination]

/-- A move takes the turtle from the end of its way to the target, gliding or not. -/
theorem jumper_moveTo (s : Sprite) (target : Point) : (s.moveTo target).jumper = s.jumper.jump target := by
  unfold moveTo Jumper.jump
  have stands : s.stopGlide.position = s.jumper.position := rfl
  have pen : s.stopGlide.penDown = s.jumper.penDown := rfl
  dsimp only
  rw [stands,pen]
  by_cases draws : (s.jumper.penDown && target != s.jumper.position) = true
  · rw [if_pos draws,if_pos draws]
    split <;> rfl
  · rw [if_neg draws,if_neg draws]
    split <;> rfl

theorem jumper_endPolygon (s : Sprite) : s.endPolygon.jumper = s.jumper.endPolygon := by
  unfold endPolygon Jumper.endPolygon
  have corners : s.jumper.polygon = s.polygon := rfl
  rw [corners]
  cases recorded : s.polygon with
  | none =>
    rw [jumper,jumper,recorded]
    rfl
  | some vertices =>
    dsimp only
    split <;> rfl

/-- Every operation does to the jumper that a turtle is what it does to the turtle, with the same answer. -/
theorem perform_jumper (s : Sprite) (op : Operation) :
    (s.perform op).1 = (s.jumper.perform op).1 ∧ (s.perform op).2.jumper = (s.jumper.perform op).2 := by
  cases op with
  | forward distance => exact ⟨rfl,jumper_moveTo s.stopGlide _⟩
  | setPosition point => exact ⟨rfl,jumper_moveTo s point⟩
  | endPolygon => exact ⟨rfl,jumper_endPolygon s⟩
  | update seconds => exact ⟨rfl,jumper_update s seconds⟩
  | _ => exact ⟨rfl,rfl⟩

theorem performAll_jumper (ops : List Operation) : ∀ s : Sprite,
    (s.performAll ops).1 = (s.jumper.performAll ops).1 ∧ (s.performAll ops).2.jumper = (s.jumper.performAll ops).2 := by
  induction ops with
  | nil => exact fun s => ⟨rfl,rfl⟩
  | cons op ops ih =>
    intro s
    obtain ⟨answer,behind⟩ := perform_jumper s op
    obtain ⟨answers,last⟩ := ih (s.perform op).2
    rw [behind] at answers last
    refine ⟨?_,last⟩
    show (s.perform op).1 :: _ = (s.jumper.perform op).1 :: _
    rw [answer,answers]

end Sprite

namespace Jumper

/-- Every polygon on the canvas has three corners or more. -/
def Filled (j : Jumper) : Prop := ∀ polygon ∈ j.canvas.polygons, 3 ≤ polygon.vertices.length

theorem polygons_jump (j : Jumper) (point : Point) : (j.jump point).canvas.polygons = j.canvas.polygons := by
  unfold jump
  split <;> rfl

theorem Filled.endPolygon {j : Jumper} (filled : j.Filled) : j.endPolygon.Filled := by
  unfold Jumper.endPolygon
  split
  · exact filled
  · split
    case isTrue enough =>
      intro polygon drawn
      rcases Array.mem_push.mp drawn with before | rfl
      · exact filled polygon before
      · exact enough
    case isFalse => exact filled

theorem Filled.perform {j : Jumper} (filled : j.Filled) (op : Operation) : (j.perform op).2.Filled := by
  cases op with
  | forward distance =>
    show ∀ polygon ∈ (j.jump _).canvas.polygons, _
    rw [polygons_jump]
    exact filled
  | setPosition point =>
    show ∀ polygon ∈ (j.jump _).canvas.polygons, _
    rw [polygons_jump]
    exact filled
  | endPolygon => exact filled.endPolygon
  | reset => exact fun polygon drawn => absurd drawn (Array.not_mem_empty polygon)
  | _ => exact filled

theorem Filled.performAll (ops : List Operation) : ∀ {j : Jumper}, j.Filled → (j.performAll ops).2.Filled := by
  induction ops with
  | nil => exact id
  | cons op ops ih => exact fun filled => ih (filled.perform op)

theorem perform_goal {j : Jumper} {op : Operation} {point : Point} (sent : j.goal op = some point) :
    (j.perform op).2 = j.jump point := by
  cases op with
  | forward distance =>
    cases sent
    rfl
  | setPosition target =>
    cases sent
    rfl
  | _ => cases sent

end Jumper

/-- After any operations a turtle has drawn what a jumper draws: the canvas, the polygon being recorded and all that is
known of the turtle but its speed and its way are the same, and so were all answers. A move with the pen down to
another point than where the turtle was bound for draws one line, from there to the new point, and any other move
draws none. Every polygon on the canvas has at least three corners. -/
theorem draws_as_jumper (config : Config) (ops : List Operation) :
    let s := (Sprite.ofConfig config).performAll ops
    let j := (Jumper.ofConfig config).performAll ops
    (s.1 = j.1 ∧ s.2.canvas = j.2.canvas ∧ s.2.polygon = j.2.polygon ∧ s.2.destination = j.2.position ∧
      s.2.heading = j.2.heading ∧ s.2.penDown = j.2.penDown ∧ s.2.visible = j.2.visible ∧ s.2.color = j.2.color) ∧
    (∀ op point, j.2.goal op = some point → (s.2.perform op).2.destination = point ∧
      (s.2.perform op).2.canvas.polygons = s.2.canvas.polygons ∧
      (s.2.perform op).2.canvas.segments =
        if s.2.penDown && point != s.2.destination then s.2.canvas.segments.push ⟨s.2.destination,point,s.2.color⟩
        else s.2.canvas.segments) ∧
    ∀ polygon ∈ s.2.canvas.polygons, 3 ≤ polygon.vertices.length := by
  intro s j
  obtain ⟨answers,last⟩ := Sprite.performAll_jumper ops (.ofConfig config)
  have same : s.2.jumper = j.2 := last
  have filled : (Jumper.ofConfig config).Filled := fun polygon drawn => absurd drawn (Array.not_mem_empty polygon)
  refine ⟨⟨answers,?_⟩,fun op point sent => ?_,?_⟩
  · rw [← same]
    exact ⟨rfl,rfl,rfl,rfl,rfl,rfl,rfl⟩
  · have moved := (Sprite.perform_jumper s.2 op).2
    rw [same,Jumper.perform_goal sent,← same] at moved
    refine ⟨(congrArg Jumper.position moved).trans ?_,(congrArg (·.canvas.polygons) moved).trans ?_,
      (congrArg (·.canvas.segments) moved).trans ?_⟩
    · unfold Jumper.jump
      split <;> rfl
    · exact Jumper.polygons_jump _ _
    · unfold Jumper.jump
      show Canvas.segments (Jumper.canvas (if (s.2.penDown && point != s.2.destination) = true then _ else _)) = _
      split <;> rfl
  · have drawn := filled.performAll ops
    rw [show (Jumper.ofConfig config).performAll ops = j from rfl,← same] at drawn
    exact drawn

end TurtleScript.Turtle
