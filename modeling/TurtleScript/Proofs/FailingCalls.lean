import TurtleScript.Evaluate
import TurtleScript.Proofs.Effects

/-!
Calls of the library that fail. A step is guarded if it leaves the world as it is whenever it fails
(`Action.Guarded`): checks are, steps that cannot fail are, and a check in front of a guarded step makes one
again. So is every function of the library but one (`Builtin.guarded_apply`). Ending a polygon of too few corners
fails and still ends it (`Builtin.run_endPoly`), which is all that a failing call ever does
(`failing_call_harmless`).
-/

namespace TurtleScript

namespace Action

open TurtleScript.Builtin (Checks)

variable {α β : Type}

/-- A step that leaves the world as it is if it fails. -/
def Guarded (action : Action α) : Prop :=
  ∀ w v fault, action.run.run w = (.error fault,v) → v = w

def Sure (action : Action α) : Prop := ∀ w, ∃ a v, action.run.run w = (.ok a,v)

theorem Sure.guarded {action : Action α} (sure : Sure action) : Guarded action := by
  intro w v fault out
  obtain ⟨a,u,done⟩ := sure w
  cases done.symm.trans out

theorem guarded_of_checks {action : Action α} (checks : Checks action) : Guarded action := by
  intro w v fault out
  have same := checks w
  rw [out] at same
  exact same

/-- A check in front changes nothing, whether it fails or the step behind it does. -/
theorem guarded_bind {action : Action α} {next : α → Action β} (checks : Checks action)
    (rest : ∀ a, Guarded (next a)) : Guarded (action >>= next) := by
  intro w v fault out
  have same := checks w
  rw [run_bind] at out
  rcases first : action.run.run w with ⟨e | a,u⟩
  · rw [first] at same out
    cases out
    exact same
  · rw [first] at same out
    cases same
    exact rest a u v fault out

theorem sure_pure (a : α) : Sure (pure a : Action α) := fun _ => ⟨_,_,rfl⟩

theorem sure_renew (f : Store → α × Store) : Sure (renew f) := fun _ => ⟨_,_,rfl⟩

theorem sure_alter (f : Store → Store) : Sure (alter f) := sure_renew _

theorem sure_draw (f : Turtle.Sprite → Turtle.Sprite) : Sure (draw f) := fun _ => ⟨_,_,rfl⟩

theorem sure_print (line : String) : Sure (print line) := fun _ => ⟨_,_,rfl⟩

theorem guarded_fail (fault : Fault) : Guarded (fail fault : Action α) := guarded_of_checks fun _ => rfl

/-- A step that cannot fail may be the last one, with a result of what it gives. -/
theorem guarded_last {action : Action α} (sure : Sure action) (f : α → β) :
    Guarded (action >>= fun a => pure (f a)) := by
  refine Sure.guarded fun w => ?_
  obtain ⟨a,u,out⟩ := sure w
  rw [run_bind,out]
  exact ⟨f a,u,rfl⟩

theorem guarded_pure (a : α) : Guarded (pure a : Action α) := (sure_pure a).guarded

end Action

namespace Builtin

open TurtleScript.Action

theorem guarded_sizeOf (value : Value) : (sizeOf value).Guarded := by
  cases value with
  | array id => exact guarded_bind (checks_read _) fun _ => guarded_pure _
  | text t => exact guarded_pure _
  | _ => exact guarded_fail _

/-- A function of the library that fails leaves the world as it is, unless it is the one that ends a polygon. -/
theorem guarded_apply {function : Builtin} (other : function ≠ .endPoly) (args : List Value) :
    (apply function args).Guarded := by
  unfold apply
  -- In every case what changes the world comes behind all that can fail.
  split
  · exact guarded_bind (checks_read _) fun _ => guarded_last (sure_print _) _
  · exact guarded_sizeOf _
  · exact guarded_bind (checks_expectArray _ _) fun _ => guarded_last (sure_renew _) _
  · exact guarded_bind (checks_expectArray _ _) fun _ => guarded_last (sure_renew _) _
  · exact guarded_bind (checks_expectArray _ _) fun _ => (sure_renew _).guarded
  · exact guarded_bind (checks_expectArray _ _) fun _ => (sure_renew _).guarded
  · exact guarded_bind (checks_expectArray _ _) fun _ => guarded_of_checks (checks_inquire _)
  · refine guarded_bind (checks_expectArray _ _) fun id => ?_
    rw [revise_setItem,bind_assoc]
    exact guarded_bind (checks_inquire _) fun _ => guarded_last (sure_alter _) _
  · exact guarded_bind (checks_read _) fun _ => guarded_pure _
  · exact guarded_pure _
  -- Numbers.
  · exact guarded_bind (checks_expectNumber _ _) fun _ => guarded_pure _
  · exact guarded_bind (checks_expectNumber _ _) fun _ => guarded_pure _
  · exact guarded_bind (checks_expectNumber _ _) fun _ => guarded_pure _
  · refine guarded_bind (checks_expectNumber _ _) fun _ => ?_
    split
    · exact guarded_fail _
    · exact guarded_pure _
  · exact guarded_bind (checks_expectNumber _ _) fun _ => guarded_pure _
  · exact guarded_bind (checks_expectNumber _ _) fun _ => guarded_pure _
  · exact guarded_bind (checks_expectNumber _ _) fun _ => guarded_bind (checks_expectNumber _ _) fun _ => guarded_pure _
  · exact guarded_bind (checks_expectNumber _ _) fun _ => guarded_bind (checks_expectNumber _ _) fun _ => guarded_pure _
  -- The turtle.
  · exact guarded_bind (checks_observe _) fun _ => guarded_pure _
  · exact guarded_bind (checks_observe _) fun _ => guarded_pure _
  · refine guarded_bind (checks_expectNumber _ _) fun _ => guarded_bind (checks_expectNumber _ _) fun _ => ?_
    exact guarded_last (sure_draw _) _
  · exact guarded_bind (checks_expectNumber _ _) fun _ => guarded_last (sure_draw _) _
  · exact guarded_bind (checks_expectNumber _ _) fun _ => guarded_last (sure_draw _) _
  · exact guarded_bind (checks_observe _) fun _ => guarded_pure _
  · exact guarded_bind (checks_expectNumber _ _) fun _ => guarded_last (sure_draw _) _
  · exact guarded_bind (checks_expectNumber _ _) fun _ => guarded_last (sure_draw _) _
  · exact guarded_last (sure_draw _) _
  · exact guarded_last (sure_draw _) _
  · exact guarded_last (sure_draw _) _
  · exact guarded_last (sure_draw _) _
  · refine guarded_bind (checks_expectComponent _ _) fun _ => guarded_bind (checks_expectComponent _ _) fun _ => ?_
    exact guarded_bind (checks_expectComponent _ _) fun _ => guarded_last (sure_draw _) _
  · refine guarded_bind (checks_expectNumber _ _) fun _ => ?_
    split
    · exact guarded_fail _
    · exact guarded_last (sure_draw _) _
  -- Polygons.
  · exact guarded_last (sure_draw _) _
  · refine guarded_bind (checks_observe _) fun _ => ?_
    split
    · exact guarded_last (sure_draw _) _
    · exact guarded_fail _
  · exact absurd rfl other
  · exact guarded_fail _

/-! ### The polygon -/

theorem endPolygon_few {s : Turtle.Sprite} (few : s.vertexCount < 3) : s.endPolygon = { s with polygon := none } := by
  unfold Turtle.Sprite.vertexCount at few
  unfold Turtle.Sprite.endPolygon
  cases recording : s.polygon with
  | none => rfl
  | some vertices =>
    rw [recording,Option.getD_some] at few
    simp only [if_neg (Nat.not_le.mpr few)]

/-- Ending a polygon of too few corners, or none, fails and leaves no polygon open. -/
theorem run_endPoly (w : World) : (apply .endPoly []).run.run w =
    if w.sprite.vertexCount < 3 then
      (.error (.invalidArgument "endPoly" s!"needs at least 3 vertices, got {w.sprite.vertexCount}."),
        { w with sprite := { w.sprite with polygon := none } })
    else (.ok .null,{ w with sprite := w.sprite.endPolygon }) := by
  have drawn : (apply .endPoly []).run.run w =
      (if w.sprite.vertexCount < 3 then
        .fail (.invalidArgument "endPoly" s!"needs at least 3 vertices, got {w.sprite.vertexCount}.")
      else return .null : Action Value).run.run { w with sprite := w.sprite.endPolygon } := rfl
  rw [drawn]
  by_cases few : w.sprite.vertexCount < 3
  · rw [if_pos few,if_pos few,← endPolygon_few few]
    rfl
  · rw [if_neg few,if_neg few]
    rfl

theorem endPoly_of_name {b : Builtin} (named : b.name = "endPoly") : b = .endPoly := by
  cases b <;> first | rfl | exact absurd named (by decide)

end Builtin

/-- What the tables hold besides numbers are the functions of the library, by their names. -/
theorem Library.listed_function {name : String} {f : Function}
    (listed : (name,.function f) ∈ standard.entries ++ drawing.entries) :
    ∃ b : Builtin, f = .builtin b ∧ name = b.name := by
  have named {table : List Builtin} (mem : (name,.function f) ∈ functions table) :
      ∃ b : Builtin, f = .builtin b ∧ name = b.name := by
    obtain ⟨b,_,same⟩ := List.mem_map.mp mem
    simp only [Prod.mk.injEq,Value.function.injEq] at same
    exact ⟨b,same.2.symm,same.1.symm⟩
  simp only [standard,drawing,List.mem_append,List.mem_singleton,Prod.mk.injEq] at listed
  rcases listed with (first | ⟨_,other⟩) | second
  · exact named first
  · cases other
  · exact named second

/-- A call ends an open polygon of fewer than three corners. -/
def EndsShort (name : String) (args : List Value) (w : World) : Prop :=
  name = "endPoly" ∧ args = [] ∧ ∃ vertices, w.sprite.polygon = some vertices ∧ vertices.length < 3

/-- The world with no polygon open. -/
def World.polygonEnded (w : World) : World := { w with sprite := { w.sprite with polygon := none } }

theorem World.polygonEnded_eq {w : World} (closed : w.sprite.polygon = none) : w.polygonEnded = w := by
  unfold polygonEnded
  rw [← closed]

theorem endsShort_of_few {w : World} (few : w.sprite.vertexCount < 3) (recording : w.sprite.polygon ≠ none) :
    EndsShort "endPoly" [] w := by
  obtain ⟨vertices,drawn⟩ := Option.ne_none_iff_exists'.mp recording
  unfold Turtle.Sprite.vertexCount at few
  rw [drawn,Option.getD_some] at few
  exact ⟨rfl,rfl,vertices,drawn,few⟩

theorem Builtin.endPoly_failed {w v : World} {fault : Fault}
    (out : (Builtin.endPoly.apply []).run.run w = (.error fault,v)) :
    w.sprite.vertexCount < 3 ∧ v = w.polygonEnded := by
  rw [run_endPoly] at out
  by_cases few : w.sprite.vertexCount < 3
  · rw [if_pos few] at out
    cases out
    exact ⟨few,rfl⟩
  · rw [if_neg few] at out
    cases out

theorem Builtin.apply_failed {b : Builtin} {args : List Value} {w v : World} {fault : Fault}
    (out : (b.apply args).run.run w = (.error fault,v)) :
    (¬ EndsShort b.name args w → v = w) ∧ (EndsShort b.name args w → v = w.polygonEnded) := by
  by_cases polygon : b = .endPoly
  · subst polygon
    cases args with
    | cons arg args =>
      refine ⟨fun _ => Action.guarded_fail _ w v fault out,?_⟩
      rintro ⟨_,none,_⟩
      cases none
    | nil =>
      obtain ⟨few,ended⟩ := endPoly_failed out
      refine ⟨fun other => ?_,fun _ => ended⟩
      -- A polygon that was open had too few corners, so there was none.
      by_cases closed : w.sprite.polygon = none
      · exact ended.trans (World.polygonEnded_eq closed)
      · exact absurd (endsShort_of_few few closed) other
  · refine ⟨fun _ => guarded_apply polygon args w v fault out,?_⟩
    rintro ⟨named,_⟩
    exact absurd (endPoly_of_name named) polygon

/-- A call of a function of the library that fails has printed nothing and changed nothing, but for the call that
ends an open polygon of fewer than three corners: it leaves the polygon ended, and all else as it was. -/
theorem failing_call_harmless {name : String} {f : Function}
    (listed : (name,.function f) ∈ Library.standard.entries ++ Library.drawing.entries) (invoke : Invoke)
    (args : List Value) {w v : World} {e : Interruption} (fails : f.call invoke args w = .done (.error e) v) :
    (¬ EndsShort name args w → v = w) ∧ (EndsShort name args w → v = w.polygonEnded) := by
  obtain ⟨b,rfl,rfl⟩ := Library.listed_function listed
  unfold Function.call at fails
  split at fails
  case isTrue odd =>
    cases fails
    refine ⟨fun _ => rfl,?_⟩
    rintro ⟨named,rfl,_⟩
    exact absurd (congrArg Builtin.arity (Builtin.endPoly_of_name named)).symm odd
  case isFalse =>
    dsimp only [Script.ofAction] at fails
    rcases out : (b.apply args).run.run w with ⟨fault | a,u⟩
    · rw [out] at fails
      cases fails
      exact Builtin.apply_failed out
    · rw [out] at fails
      cases fails

/-- A change behind the end of an array fails and leaves all as it was, and a polygon of two corners is ended. -/
theorem failing_call_harmless_twoCorners :
    let polygon : List Turtle.Point := [⟨0.0,0.0⟩,⟨3.0,4.0⟩]
    let w : World :=
      { sprite := { Turtle.Sprite.ofConfig {} with polygon := some polygon }, store := { arrays := #[[.null]] } }
    let behind : List Value := [.array 0,.number 1.0,.bool true]
    let past : Interruption := .failed { fault := .indexOutOfRange "Array" 1 1 }
    let short : Interruption := .failed { fault := .invalidArgument "endPoly" "needs at least 3 vertices, got 2." }
    let listed (b : Builtin) := (b.name,.function (.builtin b)) ∈ Library.standard.entries ++ Library.drawing.entries
    let fails (b : Builtin) (args : List Value) (e : Interruption) (v : World) :=
      (Function.builtin b).call (fun _ _ w => .done (.ok .null) w) args w = .done (.error e) v
    (listed .set ∧ ¬ EndsShort "set" behind w ∧ (∃ v, fails .set behind past v) ∧ ∀ v, fails .set behind past v → v = w) ∧
      listed .endPoly ∧ EndsShort "endPoly" [] w ∧ (∃ v, fails .endPoly [] short v) ∧
        ∀ v, fails .endPoly [] short v → v = w.polygonEnded := by
  intro polygon w behind past short listed fails
  have set : listed .set := List.mem_append_left _ (List.mem_append_left _ (List.mem_map.mpr ⟨.set,by decide,rfl⟩))
  have endPoly : listed .endPoly := List.mem_append_right _ (List.mem_map.mpr ⟨.endPoly,by decide,rfl⟩)
  have long : ¬ EndsShort "set" behind w := fun ends => absurd ends.1 (by decide)
  have ends : EndsShort "endPoly" [] w := ⟨rfl,rfl,polygon,rfl,by decide⟩
  have beyond : fails .set behind past w := by
    have arity : ¬ behind.length ≠ (Function.builtin .set).arity := by decide
    show (Function.builtin .set).call _ behind w = _
    unfold Function.call
    rw [if_neg arity]
    rfl
  have few : fails .endPoly [] short w.polygonEnded := by
    have arity : ¬ ([] : List Value).length ≠ (Function.builtin .endPoly).arity := by decide
    have corners : w.sprite.vertexCount < 3 := by decide
    have count : toString w.sprite.vertexCount = "2" := by decide
    show (Function.builtin .endPoly).call _ [] w = _
    unfold Function.call
    rw [if_neg arity]
    simp only [Script.ofAction,Builtin.run_endPoly,if_pos corners,count]
    rfl
  refine ⟨⟨set,long,⟨w,beyond⟩,fun v there => ?_⟩,endPoly,ends,⟨_,few⟩,fun v there => ?_⟩
  · exact (failing_call_harmless set _ behind there).1 long
  · exact (failing_call_harmless endPoly _ [] there).2 ends

end TurtleScript
