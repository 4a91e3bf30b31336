import TurtleScript.Proofs.Scene

/-!
Properties of steps that carry over to the library. Every function of the library is a sequence of
checks on its arguments with a step on arrays, on the turtle or on the output behind them; none looks
at scopes. So a property that such steps have, and that going on behind one another respects, holds of
all of them (`Action.Acting.apply`).
-/

namespace TurtleScript

theorem Store.frame_of_frames {store later : Store} (same : later.frames = store.frames) :
    later.frame = store.frame := by
  funext id
  unfold frame
  rw [same]

theorem Store.chain_of_frames {store later : Store} (same : later.frames = store.frames) :
    later.chain = store.chain := by
  funext id
  unfold chain
  rw [frame_of_frames same]

def Store.withFrames (store : Store) (frames : Array Frame) : Store := { store with frames := frames }

theorem Store.shownWithin_withFrames (store : Store) (frames : Array Frame) :
    ∀ (n : Nat) (a : Value), (store.withFrames frames).shownWithin n a = store.shownWithin n a
  | 0, a => by cases a <;> rfl
  | n + 1, a => by
    cases a with
    | array id =>
      have inner : (store.withFrames frames).shownWithin n = store.shownWithin n :=
        funext (store.shownWithin_withFrames frames n)
      rw [shownWithin,inner]
      rfl
    | _ => rfl

namespace Turtle

/-- What a function of the library does to the turtle. -/
inductive Stroke : (Sprite → Sprite) → Prop where
  | moveTo (target : Point) : Stroke (·.moveTo target)
  | forward (distance : Float) : Stroke (·.forward distance)
  | setHeading (degrees : Float) : Stroke (·.setHeading degrees)
  | turn (degrees : Float) : Stroke fun x => x.setHeading (x.heading + degrees)
  | visible (shown : Bool) : Stroke ({ · with visible := shown })
  | penDown (down : Bool) : Stroke ({ · with penDown := down })
  | color (color : Color) : Stroke ({ · with color := color })
  | setSpeed (speed : Float) : Stroke (·.setSpeed speed)
  | beginPolygon : Stroke (·.beginPolygon)
  | addVertex : Stroke (·.addVertex)
  | endPolygon : Stroke (·.endPolygon)

end Turtle

namespace Action

/-- A property of steps that going on behind one another respects. -/
structure Sequential (P : {α : Type} → Action α → Prop) : Prop where
  pure : ∀ {α : Type} (a : α), P (pure a : Action α)
  fail : ∀ {α : Type} (fault : Fault), P (fail fault : Action α)
  bind : ∀ {α β : Type} {action : Action α} {next : α → Action β}, P action → (∀ a, P (next a)) →
    P (action >>= next)

/-- Such a property, if the steps have it that the library is made of. What these find in the store and
make of it has nothing to do with scopes. -/
structure Acting (P : {α : Type} → Action α → Prop) : Prop extends Sequential P where
  read : ∀ {α : Type} {f : Store → α}, (∀ store frames, f (store.withFrames frames) = f store) → P (read f)
  inquire : ∀ {α : Type} {f : Store → Except Fault α},
    (∀ store frames, f (store.withFrames frames) = f store) → P (inquire f)
  renew : ∀ {α : Type} {f : Store → α × Store},
    (∀ store frames, f (store.withFrames frames) = ((f store).1,(f store).2.withFrames frames)) → P (renew f)
  observe : ∀ {α : Type} (f : Turtle.Sprite → α), P (observe f)
  draw : ∀ {f : Turtle.Sprite → Turtle.Sprite}, Turtle.Stroke f → P (draw f)
  print : ∀ line : String, P (print line)

variable {P : {α : Type} → Action α → Prop}

namespace Sequential

theorem expectNumber (kept : Sequential P) (function : Builtin) (value : Value) :
    P (function.expectNumber value) := by
  cases value with
  | number x => exact kept.pure x
  | _ => exact kept.fail _

theorem expectArray (kept : Sequential P) (function : Builtin) (value : Value) :
    P (function.expectArray value) := by
  cases value with
  | array id => exact kept.pure id
  | _ => exact kept.fail _

theorem expectComponent (kept : Sequential P) (function : Builtin) (value : Value) :
    P (function.expectComponent value) := by
  refine kept.bind (kept.expectNumber function value) fun x => ?_
  split
  · split
    · exact kept.pure _
    · exact kept.fail _
  · exact kept.fail _

end Sequential

namespace Acting

theorem sizeOf (kept : Acting P) (value : Value) : P (Builtin.sizeOf value) := by
  cases value with
  | array id => exact kept.bind (kept.read fun _ _ => rfl) fun _ => kept.pure _
  | text t => exact kept.pure _
  | _ => exact kept.fail _

theorem shown (kept : Acting P) (value : Value) : P (Action.read (·.shown value)) :=
  kept.read fun store frames => store.shownWithin_withFrames frames _ value

theorem drawn (kept : Acting P) {f : Turtle.Sprite → Turtle.Sprite} (stroke : Turtle.Stroke f) :
    P (do Action.draw f; return Value.null) :=
  kept.bind (kept.draw stroke) fun _ => kept.pure _

theorem apply (kept : Acting P) (function : Builtin) (args : List Value) : P (function.apply args) := by
  unfold Builtin.apply
  split
  -- Printing and arrays.
  · exact kept.bind (kept.shown _) fun _ => kept.bind (kept.print _) fun _ => kept.pure _
  · exact kept.sizeOf _
  · exact kept.bind (kept.expectArray _ _) fun _ => kept.bind (kept.renew fun _ _ => rfl) fun _ => kept.pure _
  · exact kept.bind (kept.expectArray _ _) fun _ => kept.bind (kept.renew fun _ _ => rfl) fun _ => kept.pure _
  · exact kept.bind (kept.expectArray _ _) fun _ => kept.renew fun _ _ => rfl
  · exact kept.bind (kept.expectArray _ _) fun _ => kept.renew fun _ _ => rfl
  · exact kept.bind (kept.expectArray _ _) fun _ => kept.inquire fun _ _ => rfl
  · refine kept.bind (kept.expectArray _ _) fun id => kept.bind ?_ fun _ => kept.pure _
    rw [revise_setItem]
    exact kept.bind (kept.inquire fun _ _ => rfl) fun _ => kept.renew fun _ _ => rfl
  · exact kept.bind (kept.shown _) fun _ => kept.pure _
  · exact kept.pure _
  -- Numbers.
  · exact kept.bind (kept.expectNumber _ _) fun _ => kept.pure _
  · exact kept.bind (kept.expectNumber _ _) fun _ => kept.pure _
  · exact kept.bind (kept.expectNumber _ _) fun _ => kept.pure _
  · refine kept.bind (kept.expectNumber _ _) fun _ => ?_
    split
    · exact kept.fail _
    · exact kept.pure _
  · exact kept.bind (kept.expectNumber _ _) fun _ => kept.pure _
  · exact kept.bind (kept.expectNumber _ _) fun _ => kept.pure _
  · exact kept.bind (kept.expectNumber _ _) fun _ => kept.bind (kept.expectNumber _ _) fun _ => kept.pure _
  · exact kept.bind (kept.expectNumber _ _) fun _ => kept.bind (kept.expectNumber _ _) fun _ => kept.pure _
  -- The turtle.
  · exact kept.bind (kept.observe _) fun _ => kept.pure _
  · exact kept.bind (kept.observe _) fun _ => kept.pure _
  · refine kept.bind (kept.expectNumber _ _) fun _ => kept.bind (kept.expectNumber _ _) fun _ => ?_
    exact kept.drawn (.moveTo _)
  · exact kept.bind (kept.expectNumber _ _) fun _ => kept.drawn (.forward _)
  · exact kept.bind (kept.expectNumber _ _) fun _ => kept.drawn (.forward _)
  · exact kept.bind (kept.observe _) fun _ => kept.pure _
  · exact kept.bind (kept.expectNumber _ _) fun _ => kept.drawn (.setHeading _)
  · exact kept.bind (kept.expectNumber _ _) fun _ => kept.drawn (.turn _)
  · exact kept.drawn (.visible false)
  · exact kept.drawn (.visible true)
  · exact kept.drawn (.penDown false)
  · exact kept.drawn (.penDown true)
  · refine kept.bind (kept.expectComponent _ _) fun _ => kept.bind (kept.expectComponent _ _) fun _ => ?_
    exact kept.bind (kept.expectComponent _ _) fun _ => kept.drawn (.color _)
  · refine kept.bind (kept.expectNumber _ _) fun _ => ?_
    split
    · exact kept.fail _
    · exact kept.drawn (.setSpeed _)
  -- Polygons.
  · exact kept.drawn .beginPolygon
  · refine kept.bind (kept.observe _) fun _ => ?_
    split
    · exact kept.drawn .addVertex
    · exact kept.fail _
  · refine kept.bind (kept.observe _) fun _ => kept.bind (kept.draw .endPolygon) fun _ => ?_
    split
    · exact kept.fail _
    · exact kept.pure _
  · exact kept.fail _

end Acting

end Action

end TurtleScript
