import TurtleScript.Proofs.Evaluation
import TurtleScript.Proofs.Runs

/-!
Laws that programs keep. A law says what holds of the scene, in which scopes functions and statements
may be, and what turtle a host may hand back to a run that waits. A law that each single step keeps
(`Law.Kept`) is kept by every expression, statement and call, up to every wait and every end
(`Law.Kept.eval`, `Law.Kept.exec`, `Law.Kept.script`). Unlike a compositional property it also follows
the values that are on their way: the functions among them stay in scopes of the law.
-/

namespace TurtleScript

/-- A law of running programs. -/
structure Law where
  /-- The turtles that a host may hand back. -/
  turtle : Turtle.Sprite → Prop
  holds : Scene → Prop
  /-- The scopes that functions and statements may be in. -/
  scope : Scene → FrameId → Prop

namespace Law

variable (law : Law)

def Later (s t : Scene) : Prop := ∀ id, law.scope s id → law.scope t id

def Step (s t : Scene) : Prop := law.holds t ∧ law.Later s t

/-- A value under the law: a declared function is in an allowed scope. -/
def Fits (s : Scene) : Value → Prop
  | .function (.declared c) => law.scope s c.scope
  | _ => True

def FitsAll (s : Scene) (values : List Value) : Prop := ∀ a ∈ values, law.Fits s a

def FitsFlow (s : Scene) : Flow → Prop
  | .returned a => law.Fits s a
  | .next => True

def Any {α : Type} (_ : Scene) (_ : α) : Prop := True

/-- The law holds in a world, and the statement being executed is in an allowed scope. -/
def At (w : World) : Prop := law.holds w.scene ∧ law.scope w.scene w.scope

variable {law} {s t u : Scene}

theorem Later.refl (s : Scene) : law.Later s s := fun _ allowed => allowed

theorem Later.trans (first : law.Later s t) (second : law.Later t u) : law.Later s u :=
  fun id allowed => second id (first id allowed)

theorem Fits.later {a : Value} (fits : law.Fits s a) (later : law.Later s t) : law.Fits t a := by
  cases a with
  | function f =>
    cases f with
    | builtin b => exact trivial
    | declared c => exact later c.scope fits
  | _ => exact trivial

theorem FitsAll.later {values : List Value} (fits : law.FitsAll s values) (later : law.Later s t) :
    law.FitsAll t values :=
  fun a mem => (fits a mem).later later

theorem FitsAll.zip {args : List Value} (fits : law.FitsAll s args) (params : List Name) :
    law.FitsAll s ((params.zip args).map Prod.snd) := by
  intro a mem
  obtain ⟨⟨name,b⟩,zipped,rfl⟩ := List.mem_map.mp mem
  exact fits b (List.of_mem_zip zipped).2

/-- What each single step has to do for a law to be kept. -/
structure Kept (law : Law) : Prop where
  turtle {s : Scene} : law.holds s → law.turtle s.sprite
  still {x : Turtle.Sprite} : law.turtle x → law.turtle x.stopGlide
  handed {s : Scene} {x : Turtle.Sprite} : law.holds s → law.turtle x → law.Step s { s with sprite := x }
  global {s : Scene} : law.holds s → law.scope s Store.global
  get {s : Scene} {id : FrameId} {name : String} {a : Value} : law.holds s → law.scope s id →
    s.store.get id name = .ok a → law.Fits s a
  item {s : Scene} {target position a : Value} : law.holds s → s.store.itemOf target position = .ok a →
    law.Fits s a
  put {s : Scene} {id holder : FrameId} {name : String} {a : Value} : law.holds s → law.scope s id →
    law.Fits s a → s.store.assignable id name = .ok holder →
      law.Step s { s with store := s.store.put holder name a }
  bind {s : Scene} {id : FrameId} {name : String} {a : Value} : law.holds s → law.scope s id →
    law.Fits s a → s.store.definable id name = .ok () →
      law.Step s { s with store := s.store.bind id { name := name, value := a } }
  newArray {s : Scene} {items : List Value} : law.holds s → law.FitsAll s items →
    law.Step s { s with store := (s.store.newArray items).2 }
  newClosure {s : Scene} (id : FrameId) (name : Name) (params : List Name) (body : List Stmt) :
    law.holds s → law.Step s { s with store := (s.store.newClosure id name params body).2 }
  child {s : Scene} {parent : FrameId} : law.holds s → law.scope s parent →
    law.Step s { s with store := (s.store.child parent).2 } ∧
      law.scope { s with store := (s.store.child parent).2 } (s.store.child parent).1
  apply {s : Scene} (b : Builtin) {args : List Value} : law.holds s → law.FitsAll s args →
    law.Step s ((b.apply args).onScene s).2 ∧
      ∀ a, ((b.apply args).onScene s).1 = .ok a → law.Fits ((b.apply args).onScene s).2 a

end Law

/-! ### Runs under a law -/

namespace Run

variable {α β : Type} {law : Law} {before : World} {post : Scene → α → Prop}

/-- The run keeps the law from a world on: at each wait, where the turtle is on its way, and at the
end, where it is back in its scope and a result is as expected. -/
def Keeps (law : Law) (before : World) (post : Scene → α → Prop) : Run α → Prop
  | .done result w =>
    w.scope = before.scope ∧ law.Step before.scene w.scene ∧ ∀ a, result = .ok a → post w.scene a
  | .waiting w resume =>
    w.sprite.gliding ∧ law.At w ∧ law.Later before.scene w.scene ∧
      ∀ v, Handed w v → law.turtle v.sprite → (resume v).Keeps law before post

theorem Keeps.since {run : Run α} {w : World} (keeps : run.Keeps law w post) (same : w.scope = before.scope)
    (later : law.Later before.scene w.scene) : run.Keeps law before post := by
  induction run with
  | done result v =>
    obtain ⟨scope,step,result⟩ := keeps
    exact ⟨scope.trans same,⟨step.1,later.trans step.2⟩,result⟩
  | waiting v resume ih =>
    obtain ⟨moving,inside,further,rest⟩ := keeps
    exact ⟨moving,inside,later.trans further,fun u handed turtle => ih u (rest u handed turtle)⟩

theorem Keeps.andThen {run : Run α} {f : α → World → Run β} {next : Scene → β → Prop}
    (first : run.Keeps law before post)
    (second : ∀ a w, w.scope = before.scope → law.Step before.scene w.scene → post w.scene a →
      (f a w).Keeps law w next) : (run.andThen f).Keeps law before next := by
  induction run with
  | done result w =>
    obtain ⟨scope,step,good⟩ := first
    cases result with
    | ok a => exact (second a w scope step (good a rfl)).since scope step.2
    | error e => exact ⟨scope,step,fun _ same => nomatch same⟩
  | waiting w resume ih =>
    obtain ⟨moving,inside,further,rest⟩ := first
    exact ⟨moving,inside,further,fun v handed turtle => ih v (rest v handed turtle)⟩

theorem Keeps.locate {run : Run α} (span : Span) (keeps : run.Keeps law before post) :
    (run.locate span).Keeps law before post := by
  induction run with
  | done result w =>
    obtain ⟨scope,step,good⟩ := keeps
    refine ⟨scope,step,fun a same => good a ?_⟩
    cases result with
    | ok b => exact same
    | error e => cases same
  | waiting w resume ih =>
    obtain ⟨moving,inside,further,rest⟩ := keeps
    exact ⟨moving,inside,further,fun v handed turtle => ih v (rest v handed turtle)⟩

/-- A run keeps the law from a world on if it does so from another one with the same scene, and its end
leads back to the scope of the first. -/
theorem Keeps.atEnd {run : Run α} {f : World → World} {inner : World} (keeps : run.Keeps law inner post)
    (same : inner.scene = before.scene) (scene : ∀ w, (f w).scene = w.scene)
    (back : ∀ w, w.scope = inner.scope → (f w).scope = before.scope) : (run.atEnd f).Keeps law before post := by
  induction run with
  | done result w =>
    obtain ⟨scope,step,good⟩ := keeps
    rw [same,← scene w] at step
    rw [← scene w] at good
    exact ⟨back w scope,step,good⟩
  | waiting w resume ih =>
    obtain ⟨moving,inside,further,rest⟩ := keeps
    rw [same] at further
    exact ⟨moving,inside,further,fun v handed turtle => ih v (rest v handed turtle)⟩

end Run

namespace Script

variable {α β : Type} {law : Law} {w : World} {post : Scene → α → Prop}

theorem keeps_pure {a : α} (inside : law.At w) (good : post w.scene a) :
    ((pure a : Script α) w).Keeps law w post := by
  refine ⟨rfl,⟨inside.1,.refl _⟩,fun b same => ?_⟩
  cases same
  exact good

theorem keeps_fail (inside : law.At w) (fault : Fault) : ((fail fault : Script α) w).Keeps law w post :=
  ⟨rfl,⟨inside.1,.refl _⟩,fun _ same => nomatch same⟩

theorem keeps_ofAction {action : Action α} (contained : action.Contained)
    (step : law.Step w.scene (action.onScene w.scene).2)
    (good : ∀ a, (action.onScene w.scene).1 = .ok a → post (action.onScene w.scene).2 a) :
    (ofAction action w).Keeps law w post := by
  rw [ofAction_eq contained]
  refine ⟨rfl,step,fun a same => good a ?_⟩
  cases result : (action.onScene w.scene).1 with
  | ok b =>
    rw [result] at same
    cases same
    rfl
  | error fault =>
    rw [result] at same
    cases same

theorem keeps_inquire {f : Store → Except Fault α} (inside : law.At w)
    (good : ∀ a, f w.store = .ok a → post w.scene a) : (ofAction (Action.inquire f) w).Keeps law w post := by
  refine keeps_ofAction (Action.contained_inquire f) ?_ ?_
  · rw [Action.onScene_inquire]
    exact ⟨inside.1,.refl _⟩
  · rw [Action.onScene_inquire]
    exact good

theorem keeps_look {g : World → α} {f : α → Script β} {next : Scene → β → Prop}
    (rest : (f (g w) w).Keeps law w next) : ((do f (← look g)) w).Keeps law w next := rest

theorem keeps_change {f : World → World} (inside : law.At w) (scope : (f w).scope = w.scope)
    (scene : (f w).scene = w.scene) : (change f w).Keeps law w Law.Any := by
  refine ⟨scope,?_,fun _ _ => trivial⟩
  rw [scene]
  exact ⟨inside.1,.refl _⟩

/-- Statements of a list keep the law inside a block if they do by themselves. -/
theorem keeps_inBlock {id : FrameId} (length : Nat) {m : Script α} (inside : law.At w)
    (allowed : law.scope w.scene id) (body : ∀ {v : World}, law.At v → (m v).Keeps law v post) :
    (inBlock id length m w).Keeps law w post := by
  let entered : World := { w with scope := id, monitor := w.monitor.enterBlock length }
  have inner : (m entered).Keeps law entered post := body ⟨inside.1,allowed⟩
  exact inner.atEnd rfl (fun _ => rfl) fun _ _ => rfl

end Script

namespace Law

open Script

variable {law : Law} {w : World}

theorem At.later (inside : law.At w) {v : World} (scope : v.scope = w.scope) (step : law.Step w.scene v.scene) :
    law.At v := by
  refine ⟨step.1,?_⟩
  rw [scope]
  exact step.2 _ inside.2

namespace Kept

theorem checkKilled (kept : law.Kept) (inside : law.At w) : (checkKilled w).Keeps law w Any := by
  unfold Script.checkKilled
  split
  · refine ⟨rfl,?_,fun _ _ => trivial⟩
    exact kept.handed inside.1 (kept.still (kept.turtle inside.1))
  · exact keeps_pure inside trivial

theorem awaitTurtle (kept : law.Kept) (inside : law.At w) : (awaitTurtle w).Keeps law w Any := by
  unfold Script.awaitTurtle
  split
  case isTrue moving =>
    refine ⟨moving,inside,.refl _,fun v handed turtle => ?_⟩
    have scene : v.scene = { w.scene with sprite := v.sprite } := by
      unfold World.scene
      rw [handed.store,handed.printed]
    have step : law.Step w.scene v.scene := by
      rw [scene]
      exact kept.handed inside.1 turtle
    exact (kept.checkKilled (inside.later handed.scope step)).since handed.scope step.2
  case isFalse => exact keeps_pure inside trivial

theorem checkpoint (kept : law.Kept) (inside : law.At w) : (checkpoint w).Keeps law w Any := by
  refine (kept.checkKilled inside).andThen fun _ v scope step _ => ?_
  refine (keeps_change (inside.later scope step) rfl rfl).andThen fun _ u further more _ => ?_
  exact kept.awaitTurtle ((inside.later scope step).later further more)

theorem newScope (kept : law.Kept) {parent : FrameId} (inside : law.At w) (allowed : law.scope w.scene parent) :
    (newScope parent w).Keeps law w law.scope := by
  obtain ⟨step,made⟩ := kept.child inside.1 allowed
  refine keeps_ofAction (Action.contained_renew _) step fun id same => ?_
  cases same
  exact made

theorem define (kept : law.Kept) {id : FrameId} {name : String} {a : Value} (inside : law.At w)
    (allowed : law.scope w.scene id) (fits : law.Fits w.scene a) :
    (ofAction (Action.define id name a) w).Keeps law w Any := by
  refine keeps_ofAction (Action.contained_define id name a) ?_ fun _ _ => trivial
  unfold Action.define
  rw [Action.onScene_bind _ fun _ => Action.contained_alter _,Action.onScene_inquire]
  cases free : w.scene.store.definable id name with
  | ok _ => exact kept.bind inside.1 allowed fits free
  | error fault => exact ⟨inside.1,.refl _⟩

theorem assign (kept : law.Kept) {name : String} {a : Value} (inside : law.At w)
    (fits : law.Fits w.scene a) :
    (inScope (Action.assign · name a) w).Keeps law w Any := by
  refine keeps_ofAction (Action.contained_assign w.scope name a) ?_ fun _ _ => trivial
  unfold Action.assign
  rw [Action.onScene_bind _ fun _ => Action.contained_alter _,Action.onScene_inquire]
  cases free : w.scene.store.assignable w.scope name with
  | ok holder => exact kept.put inside.1 inside.2 fits free
  | error fault => exact ⟨inside.1,.refl _⟩

theorem bindAll (kept : law.Kept) {id : FrameId} : ∀ (bindings : List (Name × Value)) {w : World}, law.At w →
    law.scope w.scene id → law.FitsAll w.scene (bindings.map Prod.snd) → (bindAll id bindings w).Keeps law w Any
  | [],_,inside,_,_ => keeps_pure inside trivial
  | (name,a) :: rest,_,inside,allowed,fits => by
    rw [List.map_cons] at fits
    refine ((kept.define inside allowed (fits a (.head _))).locate name.span).andThen fun _ v scope step _ => ?_
    have others : law.FitsAll v.scene (rest.map Prod.snd) :=
      fun b mem => (fits b (.tail _ mem)).later step.2
    exact kept.bindAll rest (inside.later scope step) (step.2 _ allowed) others

theorem repeatWhile (kept : law.Kept) (limit : Nat) {test : Script Bool} {body : Script Flow}
    (tests : ∀ {w : World}, law.At w → (test w).Keeps law w Any)
    (bodies : ∀ {w : World}, law.At w → (body w).Keeps law w law.FitsFlow) :
    ∀ (rounds : Nat) {w : World}, law.At w → (repeatWhile limit test body rounds w).Keeps law w law.FitsFlow
  | 0,_,inside => by
    refine (tests inside).andThen fun holds v scope step _ => ?_
    cases holds with
    | true => exact keeps_fail (inside.later scope step) _
    | false => exact keeps_pure (inside.later scope step) trivial
  | rounds + 1,_,inside => by
    refine (tests inside).andThen fun holds v scope step _ => ?_
    have first := inside.later scope step
    cases holds with
    | false => exact keeps_pure first trivial
    | true =>
      refine (bodies first).andThen fun flow u scope step fits => ?_
      have second := first.later scope step
      cases flow with
      | returned a => exact keeps_pure second fits
      | next =>
        refine (kept.checkpoint second).andThen fun _ x scope step _ => ?_
        exact kept.repeatWhile limit tests bodies rounds (second.later scope step)

end Kept

def CallsKeep (law : Law) (invoke : Invoke) : Prop :=
  ∀ ⦃c : Closure⦄ ⦃args : List Value⦄ ⦃w : World⦄, law.At w → law.scope w.scene c.scope →
    law.FitsAll w.scene args → (invoke c args w).Keeps law w law.Fits

theorem fits_unary {s : Scene} {op : UnaryOp} {a b : Value} (applied : op.apply a = .ok b) : law.Fits s b := by
  unfold UnaryOp.apply at applied
  split at applied <;> cases applied <;> exact trivial

theorem fits_binary {s : Scene} {op : BinaryOp} {a b c : Value} (applied : op.apply a b = .ok c) :
    law.Fits s c := by
  unfold BinaryOp.apply at applied
  split at applied <;> cases applied
  case h_3 x y _ _ =>
    unfold BinaryOp.onNumbers
    split <;> exact trivial
  all_goals exact trivial

namespace Kept

variable {invoke : Invoke}

theorem call (kept : law.Kept) (calls : law.CallsKeep invoke) {f : Function} {args : List Value} {w : World} (inside : law.At w)
    (fits : law.Fits w.scene (.function f)) (fitsArgs : law.FitsAll w.scene args) :
    (f.call invoke args w).Keeps law w law.Fits := by
  unfold Function.call
  split
  · exact keeps_fail inside _
  · cases f with
    | builtin b =>
      obtain ⟨step,good⟩ := kept.apply b inside.1 fitsArgs
      exact keeps_ofAction (Builtin.contained_apply b args) step good
    | declared c => exact calls inside fits fitsArgs

mutual

theorem eval (kept : law.Kept) (calls : law.CallsKeep invoke) : (e : Expr) → ∀ {w : World}, law.At w →
    (e.eval invoke w).Keeps law w law.Fits
  | .literal value span,w,inside => by
    rw [Expr.eval]
    refine (keeps_pure inside ?_).locate span
    cases value <;> exact trivial
  | .grouping inner span,w,inside => by
    rw [Expr.eval]
    exact (kept.eval calls inner inside).locate span
  | .var name span,w,inside => by
    rw [Expr.eval]
    refine Run.Keeps.locate span ?_
    exact keeps_inquire inside fun _ found => kept.get inside.1 inside.2 found
  | .assign name value span,w,inside => by
    rw [Expr.eval]
    refine Run.Keeps.locate span ((kept.eval calls value inside).andThen fun a v scope step fits => ?_)
    have first := inside.later scope step
    refine (kept.assign first fits).andThen fun _ u scope step _ => ?_
    exact keeps_pure (first.later scope step) (fits.later step.2)
  | .unary op operand span,w,inside => by
    rw [Expr.eval]
    refine Run.Keeps.locate span ((kept.eval calls operand inside).andThen fun a v scope step _ => ?_)
    exact keeps_inquire (inside.later scope step) fun _ applied => fits_unary applied
  | .binary op left right span,w,inside => by
    rw [Expr.eval]
    refine Run.Keeps.locate span ((kept.eval calls left inside).andThen fun a v scope step _ => ?_)
    have first := inside.later scope step
    refine (kept.eval calls right first).andThen fun b u scope step _ => ?_
    exact keeps_inquire (first.later scope step) fun _ applied => fits_binary applied
  | .logical op left right span,w,inside => by
    rw [Expr.eval]
    refine Run.Keeps.locate span ((kept.eval calls left inside).andThen fun a v scope step fits => ?_)
    have first := inside.later scope step
    show Run.Keeps _ _ _ ((if op.settledBy a then Pure.pure a else right.eval invoke : Script Value) v)
    split
    · exact keeps_pure first fits
    · exact kept.eval calls right first
  | .call callee args span,w,inside => by
    rw [Expr.eval]
    refine Run.Keeps.locate span ((kept.eval calls callee inside).andThen fun f v scope step fits => ?_)
    have first := inside.later scope step
    cases f with
    | function f =>
      refine (kept.evalAll calls args first).andThen fun values u scope step fitsArgs => ?_
      exact kept.call calls (first.later scope step) (fits.later step.2) fitsArgs
    | _ => exact keeps_fail first _
  | .array items span,w,inside => by
    rw [Expr.eval]
    refine Run.Keeps.locate span ((kept.evalAll calls items inside).andThen fun values v scope step fits => ?_)
    have first := inside.later scope step
    refine keeps_ofAction (Action.contained_renew _) (kept.newArray first.1 fits) fun a made => ?_
    cases made
    exact trivial
  | .index target position span,w,inside => by
    rw [Expr.eval]
    refine Run.Keeps.locate span ((kept.eval calls target inside).andThen fun a v scope step _ => ?_)
    have first := inside.later scope step
    refine (kept.eval calls position first).andThen fun b u scope step _ => ?_
    have second := first.later scope step
    exact keeps_inquire second fun _ found => kept.item second.1 found

theorem evalAll (kept : law.Kept) (calls : law.CallsKeep invoke) : (es : List Expr) → ∀ {w : World},
    law.At w → (Expr.evalAll invoke es w).Keeps law w law.FitsAll
  | [],w,inside => by
    rw [Expr.evalAll]
    exact keeps_pure inside fun _ mem => nomatch mem
  | e :: es,w,inside => by
    rw [Expr.evalAll]
    refine (kept.eval calls e inside).andThen fun a v scope step fits => ?_
    have first := inside.later scope step
    refine (kept.evalAll calls es first).andThen fun values u scope step others => ?_
    refine keeps_pure (first.later scope step) fun b mem => ?_
    rcases List.mem_cons.mp mem with rfl | mem
    · exact fits.later step.2
    · exact others b mem

end

theorem evalOption (kept : law.Kept) (calls : law.CallsKeep invoke) (e : Option Expr) {w : World} (inside : law.At w) :
    (Expr.evalOption invoke e w).Keeps law w law.Fits := by
  cases e with
  | some e => exact kept.eval calls e inside
  | none => exact keeps_pure inside trivial

mutual

theorem exec (kept : law.Kept) (calls : law.CallsKeep invoke) (config : Config) : (s : Stmt) →
    ∀ {w : World}, law.At w → (s.exec config invoke w).Keeps law w law.FitsFlow
  | .expression value span,w,inside => by
    rw [Stmt.exec]
    refine (kept.checkpoint inside).andThen fun _ v scope step _ => Run.Keeps.locate span ?_
    have first := inside.later scope step
    refine (kept.eval calls value first).andThen fun _ u scope step _ => ?_
    exact keeps_pure (first.later scope step) trivial
  | .var name initial span,w,inside => by
    rw [Stmt.exec]
    refine (kept.checkpoint inside).andThen fun _ v scope step _ => Run.Keeps.locate span ?_
    have first := inside.later scope step
    refine (kept.evalOption calls initial first).andThen fun a u scope step fits => ?_
    have second := first.later scope step
    have bound : (inScope (Action.define · name.text a) u).Keeps law u Any := kept.define second second.2 fits
    refine (bound.locate name.span).andThen fun _ x scope step _ => ?_
    exact keeps_pure (second.later scope step) trivial
  | .function name params body span,w,inside => by
    rw [Stmt.exec]
    refine (kept.checkpoint inside).andThen fun _ v scope step _ => Run.Keeps.locate span ?_
    have first := inside.later scope step
    have made : (ofAction (Action.renew (·.newClosure v.scope name params body)) v).Keeps law v law.Fits := by
      have step := kept.newClosure v.scope name params body first.1
      refine keeps_ofAction (Action.contained_renew _) step fun a same => ?_
      cases same
      exact step.2 _ first.2
    refine keeps_look (made.andThen fun a u scope step fits => ?_)
    have second := first.later scope step
    have bound : (inScope (Action.define · name.text a) u).Keeps law u Any := kept.define second second.2 fits
    refine (bound.locate name.span).andThen fun _ x scope step _ => ?_
    exact keeps_pure (second.later scope step) trivial
  | .block body span,w,inside => by
    rw [Stmt.exec]
    refine (kept.checkpoint inside).andThen fun _ v scope step _ => Run.Keeps.locate span ?_
    have first := inside.later scope step
    refine keeps_look ((kept.newScope first first.2).andThen fun id u scope step allowed => ?_)
    exact keeps_inBlock body.length (first.later scope step) allowed (kept.execAll calls config 0 body)
  | .branch test yes no span,w,inside => by
    rw [Stmt.exec]
    refine (kept.checkpoint inside).andThen fun _ v scope step _ => Run.Keeps.locate span ?_
    have first := inside.later scope step
    refine (kept.eval calls test first).andThen fun a u scope step _ => ?_
    have second := first.later scope step
    show Run.Keeps _ _ _ ((if a.truthy then yes.exec config invoke else Stmt.execOption config invoke no :
      Script Flow) u)
    split
    · exact kept.exec calls config yes second
    · exact kept.execOption calls config no second
  | .loop test body span,w,inside => by
    rw [Stmt.exec]
    refine (kept.checkpoint inside).andThen fun _ v scope step _ => Run.Keeps.locate span ?_
    refine kept.repeatWhile _ (fun within => ?_) (kept.exec calls config body) _ (inside.later scope step)
    refine (kept.eval calls test within).andThen fun _ u scope step _ => ?_
    exact keeps_pure (within.later scope step) trivial
  | .giveBack value span,w,inside => by
    rw [Stmt.exec]
    refine (kept.checkpoint inside).andThen fun _ v scope step _ => Run.Keeps.locate span ?_
    have first := inside.later scope step
    refine (kept.evalOption calls value first).andThen fun a u scope step fits => ?_
    exact keeps_pure (first.later scope step) fits

theorem execOption (kept : law.Kept) (calls : law.CallsKeep invoke) (config : Config) : (s : Option Stmt) →
    ∀ {w : World}, law.At w → (Stmt.execOption config invoke s w).Keeps law w law.FitsFlow
  | some s,w,inside => by
    rw [Stmt.execOption]
    exact kept.exec calls config s inside
  | none,w,inside => by
    rw [Stmt.execOption]
    exact keeps_pure inside trivial

theorem execAll (kept : law.Kept) (calls : law.CallsKeep invoke) (config : Config) : (index : Nat) →
    (ss : List Stmt) → ∀ {w : World}, law.At w → (Stmt.execAll config invoke index ss w).Keeps law w law.FitsFlow
  | index,[],w,inside => by
    rw [Stmt.execAll]
    exact keeps_pure inside trivial
  | index,s :: ss,w,inside => by
    rw [Stmt.execAll]
    refine (keeps_change inside rfl rfl).andThen fun _ v scope step _ => ?_
    have first := inside.later scope step
    refine (kept.exec calls config s first).andThen fun flow u scope step fits => ?_
    have second := first.later scope step
    cases flow with
    | returned a => exact keeps_pure second fits
    | next => exact kept.execAll calls config (index + 1) ss second

end

end Kept

namespace Kept

theorem invokeWithin (kept : law.Kept) (config : Config) : ∀ budget, law.CallsKeep (invokeWithin config budget)
  | 0 => fun _ _ _ inside _ _ => keeps_fail inside _
  | budget + 1 => by
    intro c args w inside allowed fits
    rw [TurtleScript.invokeWithin]
    show Run.Keeps _ _ _ ((if config.maxCallDepth ≤ w.callDepth then _ else _ : Script Value) w)
    split
    · exact keeps_fail inside _
    · refine (kept.newScope inside allowed).andThen fun id v scope step made => ?_
      have first := inside.later scope step
      have fitting := (fits.later step.2).zip c.params
      refine (kept.bindAll _ first made fitting).andThen fun _ u scope step _ => ?_
      have second := first.later scope step
      have body : (inCall (inBlock id c.body.length
          (Stmt.execAll config (TurtleScript.invokeWithin config budget) 0 c.body)) u).Keeps law u law.FitsFlow := by
        have inner := keeps_inBlock c.body.length (w := { u with callDepth := u.callDepth + 1 }) second
          (step.2 _ made) (kept.execAll (kept.invokeWithin config budget) config 0 c.body)
        exact inner.atEnd rfl (fun _ => rfl) fun _ same => same
      refine Run.Keeps.andThen body fun flow x scope step fits => ?_
      have third := second.later scope step
      cases flow with
      | returned a => exact keeps_pure third fits
      | next => exact keeps_pure third trivial

theorem script (kept : law.Kept) (config : Config) (program : Program) (holds : law.holds w.scene) :
    (program.script config w).Keeps law { w with callDepth := 0, scope := Store.global } law.FitsFlow := by
  let start : World := { w with callDepth := 0, scope := Store.global }
  have inside : law.At start := ⟨holds,kept.global holds⟩
  have block := keeps_inBlock program.statements.length inside inside.2
    (kept.execAll (kept.invokeWithin config config.maxCallDepth) config 0 program.statements)
  exact block.atEnd rfl (fun _ => rfl) fun _ same => same

end Kept

end Law

end TurtleScript
