import Mathlib.Logic.Relation
import TurtleScript.Proofs.Following
import TurtleScript.Proofs.Lifecycle

/-!
Waiting makes no difference. A host that drives a run without stopping it lets time pass, cuts the
turtle's way short and lets the run go on, in any order and as often as it likes. What is printed, drawn
and held at the end is what the program does without waiting (`suspension_transparent`).
-/

namespace TurtleScript

namespace Turtle.Sprite

theorem stopGlide_update (s : Sprite) (seconds : Float) : (s.update seconds).stopGlide = s.stopGlide := by
  unfold update
  cases way : s.target with
  | none => rfl
  | some target =>
    simp only
    split
    · simp [stopGlide,destination,way]
    · simp [stopGlide,destination,way]

end Turtle.Sprite

/-- One thing that a host does to drive a run without stopping it. -/
inductive Nudge : Session → Session → Prop where
  | update (s : Session) (seconds : Float) : Nudge s (s.draw (·.update seconds))
  | stopGlide (s : Session) : Nudge s (s.draw (·.stopGlide))
  | resume (s : Session) : Nudge s s.resume
  | run {s : Session} (suspended : s.state = .suspended) : Nudge s s.run

/-- One session is driven to another by any number of nudges. -/
def Driven : Session → Session → Prop := Relation.ReflTransGen Nudge

/-- What can be told of a run that has ended. -/
structure Report where
  printed : Array String
  outcome : Option Outcome
  vars : List Store.Variable
  /-- What the variables lead to: the items of arrays, and the scopes of functions. -/
  store : Store
  canvas : Turtle.Canvas
  destination : Turtle.Point
  heading : Float
  penDown : Bool
  visible : Bool
  color : Turtle.Color
  speed : Float
  polygon : Option (List Turtle.Point)

def Report.ofSprite (sprite : Turtle.Sprite) (printed : Array String) (outcome : Option Outcome)
    (vars : List Store.Variable) (store : Store) : Report :=
  { printed := printed
    outcome := outcome
    vars := vars
    store := store
    canvas := sprite.canvas
    destination := sprite.destination
    heading := sprite.heading
    penDown := sprite.penDown
    visible := sprite.visible
    color := sprite.color
    speed := sprite.speed
    polygon := sprite.polygon }

/-- What a session tells its host. -/
def Session.report (s : Session) : Report :=
  .ofSprite s.world.sprite s.world.printed s.outcome? s.visible s.world.store

/-- What is told of a program that ended with a result and a scene. -/
def Report.ofEnd (result : Except Interruption Flow) (s : Scene) : Report :=
  .ofSprite s.sprite s.printed (some (.ofResult result)) (s.store.visible Store.global) s.store

theorem Report.ofSprite_stopGlide (sprite : Turtle.Sprite) (printed : Array String) (outcome : Option Outcome)
    (vars : List Store.Variable) (store : Store) :
    ofSprite sprite.stopGlide printed outcome vars store = ofSprite sprite printed outcome vars store := rfl

namespace Session

/-- The session is bound to end in a given way: a run that waits settles to it, and one that is over
got there, but for the way of the turtle. -/
structure BoundFor (final : Except Interruption Flow × World) (s : Session) : Prop where
  sound : s.Sound
  settles :
    match s.phase with
    | .suspended _ resume => (resume s.world.still).settled = final
    | .finished _ outcome => outcome = .ofResult final.1 ∧ s.world.still = final.2.still
    | _ => False

variable {s : Session} {final : Except Interruption Flow × World}

/-- What a proper run settles to is what the session is bound for that takes it over. -/
theorem settleIn_boundFor (s : Session) (program : Program) {run : Run Flow} (proper : run.Proper) :
    (s.settleIn program run).BoundFor run.settled := by
  refine ⟨s.settleIn_sound program proper,?_⟩
  cases run with
  | done result w =>
    have unasked : w.monitor.killRequested = false := proper.obeys
    have same : { w with monitor := { w.monitor with killRequested := false } } = w := by
      rw [← unasked]
    exact ⟨rfl,congrArg World.still same⟩
  | waiting w resume => rfl

/-- Whatever brings the turtle to the same end of its way changes nothing in the end. -/
theorem BoundFor.draw (bound : s.BoundFor final) {f : Turtle.Sprite → Turtle.Sprite}
    (harmless : ∀ sprite, (f sprite).stopGlide = sprite.stopGlide) : (s.draw f).BoundFor final := by
  have same : (s.draw f).world.still = s.world.still := by
    unfold World.still
    simp only [Session.draw,harmless]
  refine ⟨bound.sound.draw f,?_⟩
  rw [same]
  exact bound.settles

theorem BoundFor.resume (bound : s.BoundFor final) : s.resume.BoundFor final := by
  cases phase : s.phase with
  | suspended program m =>
    have settles := bound.settles
    have unasked := bound.sound.unasked
    rw [phase] at settles
    unfold Session.resume
    rw [phase]
    by_cases moving : s.gliding
    · simp only [moving,unasked]
      exact bound
    · simp only [moving,Bool.false_and]
      have stands : s.world.still = s.world := by
        unfold World.still
        rw [Turtle.Sprite.stopGlide_of_still (Bool.not_eq_true _ ▸ moving)]
      rw [stands] at settles
      rw [← settles]
      exact s.settleIn_boundFor program (bound.sound.proper phase).resumed
  | _ =>
    unfold Session.resume
    rw [phase]
    exact bound

theorem BoundFor.nudge {t : Session} (bound : s.BoundFor final) (nudge : Nudge s t) : t.BoundFor final := by
  cases nudge with
  | update seconds => exact bound.draw fun sprite => sprite.stopGlide_update seconds
  | stopGlide => exact bound.draw Turtle.Sprite.stopGlide_stopGlide
  | resume => exact bound.resume
  | run suspended =>
    have same : s.run = s.resume := by
      unfold state at suspended
      unfold Session.run
      cases phase : s.phase <;> simp_all
    rw [same]
    exact bound.resume

theorem BoundFor.driven {t : Session} (bound : s.BoundFor final) (driven : Driven s t) : t.BoundFor final := by
  induction driven with
  | refl => exact bound
  | tail _ nudge ih => exact ih.nudge nudge

/-- A run that is over is reported as bound to end, if it left the global scope to look at. -/
theorem BoundFor.report (bound : s.BoundFor final) (finished : s.state = .finished)
    (shown : final.2.monitor.scope = some Store.global) :
    s.report = .ofEnd final.1 final.2.scene := by
  have settles := bound.settles
  cases phase : s.phase with
  | finished program outcome =>
    rw [phase] at settles
    obtain ⟨rfl,same⟩ := settles
    have told : s.outcome? = some (.ofResult final.1) := by
      unfold outcome?
      rw [phase]
    have store : s.world.store = final.2.store := (congrArg World.store same :)
    have visible : s.visible = final.2.store.visible Store.global := by
      have scope : s.world.monitor.scope = final.2.monitor.scope :=
        (congrArg (fun w : World => w.monitor.scope) same :)
      unfold Session.visible
      rw [store,scope,shown]
      rfl
    have printed : s.world.printed = final.2.printed := (congrArg World.printed same :)
    have sprite : s.world.sprite.stopGlide = final.2.sprite.stopGlide := (congrArg World.sprite same :)
    unfold Session.report
    rw [told,visible,printed,store,← Report.ofSprite_stopGlide,sprite,Report.ofSprite_stopGlide]
    rfl
  | _ =>
    unfold state at finished
    rw [phase] at finished
    cases finished

/-- A run that was taken over can be driven to its end, by cutting the turtle's ways short. -/
theorem settleIn_driven (program : Program) (run : Run Flow) (s : Session) :
    ∃ t, Driven (s.settleIn program run) t ∧ t.state = .finished := by
  induction run generalizing s with
  | done result w => exact ⟨_,.refl,rfl⟩
  | waiting w resume ih =>
    let waits : Session := s.settleIn program (.waiting w resume)
    obtain ⟨t,driven,finished⟩ := ih w.still (waits.draw (·.stopGlide))
    have goesOn : (waits.draw (·.stopGlide)).resume =
        (waits.draw (·.stopGlide)).settleIn program (resume w.still) := rfl
    rw [← goesOn] at driven
    exact ⟨t,.head (.stopGlide waits) (.head (.resume _) driven),finished⟩

end Session

/-- A program that compiles can be driven to its end, and however it is driven there, it prints, draws
and leaves what it does without waiting: the same variables, in a store where they lead to the same. -/
theorem suspension_transparent (s : Session) (source : String) (program : Program)
    (compiles : Program.compile source = .ok program) :
    let loaded := (s.compile source).2
    let reference := program.direct loaded.config loaded.world.scene
    (∃ t, Driven loaded.run t ∧ t.state = .finished) ∧
      ∀ t, Driven loaded.run t → t.state = .finished → t.report = .ofEnd reference.1 reference.2 := by
  intro loaded reference
  have sound : loaded.Sound := s.compile_sound source
  have ready : loaded.phase = .ready program := by
    simp only [loaded,Session.compile,compiles]
  have started : loaded.run = loaded.settleIn program (program.script loaded.config loaded.world) := by
    unfold Session.run
    rw [ready]
    rfl
  have outside : loaded.world.monitor.blocks = [] := by
    have placed := sound.placed
    rwa [ready] at placed
  have bound := loaded.settleIn_boundFor program (script_proper loaded.config program sound.unasked outside)
  obtain ⟨v,settled,scene,shown⟩ := script_follows loaded.config program sound.unasked
  rw [started]
  refine ⟨loaded.settleIn_driven program _,fun t driven finished => ?_⟩
  have told := (bound.driven driven).report finished (by rw [settled]; exact shown)
  rw [told,settled]
  exact congrArg (Report.ofEnd reference.1) scene

/-- A program that waits inside a call and puts something into an array behind the wait. -/
def waitInCall : String :=
  "var seen = []; function go(a) \x7b setPos(a, a); pushBack(seen, \"there\"); \x7d go(screenWidth); print(\"back\");"

theorem suspension_transparent_call :
    let loaded := ((Session.ofConfig {}).compile waitInCall).2
    loaded.run.state = .suspended ∧ ∃ t, Driven loaded.run t ∧ t.state = .finished ∧
      t.report.printed = #["back"] ∧ t.report.store.shown (.array 0) = "[there]" := by
  intro loaded
  have ends : (Program.compile waitInCall).toOption.map (fun program =>
      let final := (program.direct loaded.config loaded.world.scene).2
      (final.printed,final.store.shown (.array 0))) = some (#["back"],"[there]") := by
    decide +kernel
  refine ⟨by decide +kernel,?_⟩
  cases compiles : Program.compile waitInCall with
  | error diagnostics =>
    rw [compiles] at ends
    cases ends
  | ok program =>
    rw [compiles] at ends
    obtain ⟨⟨t,driven,finished⟩,agrees⟩ :=
      suspension_transparent (.ofConfig {}) waitInCall program compiles
    refine ⟨t,driven,finished,?_⟩
    rw [agrees t driven finished]
    exact Prod.mk.inj (Option.some.inj ends)

end TurtleScript
