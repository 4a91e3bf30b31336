import Mathlib.Data.List.Infix
import TurtleScript.Proofs.Transparency

/-!
What the limits on loops and calls can do. Two computations are compared, one under limits and one under
limits at least as large (`Direct.Raised`): they agree, or the first stopped at one of its limits with
nothing printed or drawn that the second does not print or draw as well, and at the same place. Nothing
that was printed or drawn is ever taken back (`Direct.Grows`), so this carries over from one construct to
the next and to whole sessions (`raising_limits`).
-/

namespace TurtleScript

/-- One configuration is another one with limits at least as large. -/
structure Config.Loosens (c larger : Config) : Prop where
  same : larger =
    { c with maxLoopIterations := larger.maxLoopIterations, maxCallDepth := larger.maxCallDepth }
  loops : c.maxLoopIterations ≤ larger.maxLoopIterations
  calls : c.maxCallDepth ≤ larger.maxCallDepth

theorem Config.Loosens.refl (c : Config) : c.Loosens c := ⟨rfl,Nat.le_refl _,Nat.le_refl _⟩

def Fault.OfLimit : Fault → Prop
  | .stackOverflow _ | .infiniteLoop _ => True
  | _ => False

/-- Everything printed and drawn in the one scene was printed and drawn first in the other. -/
structure Scene.Extends (s t : Scene) : Prop where
  printed : s.printed.toList <+: t.printed.toList
  segments : s.sprite.canvas.segments.toList <+: t.sprite.canvas.segments.toList
  polygons : s.sprite.canvas.polygons.toList <+: t.sprite.canvas.polygons.toList

theorem Scene.Extends.refl (s : Scene) : s.Extends s := ⟨List.prefix_rfl,List.prefix_rfl,List.prefix_rfl⟩

theorem Scene.Extends.trans {s t u : Scene} (first : s.Extends t) (second : t.Extends u) : s.Extends u :=
  ⟨first.printed.trans second.printed,first.segments.trans second.segments,first.polygons.trans second.polygons⟩

namespace Turtle

/-- A change of the turtle that takes nothing off the canvas. -/
def Sprite.Adds (f : Sprite → Sprite) : Prop :=
  ∀ x, x.canvas.segments.toList <+: (f x).canvas.segments.toList ∧
    x.canvas.polygons.toList <+: (f x).canvas.polygons.toList

namespace Sprite

theorem adds_of_kept {f : Sprite → Sprite} (kept : ∀ x, (f x).canvas = x.canvas) : Adds f := by
  intro x
  rw [kept]
  exact ⟨List.prefix_rfl,List.prefix_rfl⟩

theorem adds_moveTo (target : Point) : Adds (·.moveTo target) := by
  intro x
  have drawn : (x.moveTo target).canvas.polygons = x.canvas.polygons ∧
      x.canvas.segments.toList <+: (x.moveTo target).canvas.segments.toList := by
    unfold moveTo
    simp only
    split <;> split <;> simp [stopGlide]
  exact ⟨drawn.2,by rw [drawn.1]⟩

theorem adds_forward (distance : Float) : Adds (·.forward distance) := fun x => adds_moveTo _ x.stopGlide

theorem adds_endPolygon : Adds (·.endPolygon) := by
  intro x
  unfold endPolygon
  simp only
  refine ⟨List.prefix_rfl,?_⟩
  split
  · split <;> simp
  · exact List.prefix_rfl

end Sprite

/-- Nothing that the library does to the turtle takes anything off the canvas. -/
theorem Stroke.adds {f : Sprite → Sprite} (stroke : Stroke f) : Sprite.Adds f := by
  cases stroke with
  | moveTo target => exact Sprite.adds_moveTo target
  | forward distance => exact Sprite.adds_forward distance
  | endPolygon => exact Sprite.adds_endPolygon
  | _ => exact Sprite.adds_of_kept fun _ => rfl

end Turtle

namespace Action

variable {α β : Type}

/-- A contained step that takes back nothing that was printed or drawn. -/
structure Grows (action : Action α) : Prop where
  contained : action.Contained
  extends_scene : ∀ s : Scene, s.Extends (action.onScene s).2

/-- A step that leaves what was printed and the turtle alone takes nothing back. -/
theorem grows_of_kept {action : Action α} (contained : action.Contained)
    (printed : ∀ s, (action.onScene s).2.printed = s.printed)
    (sprite : ∀ s, (action.onScene s).2.sprite = s.sprite) : Grows action := by
  refine ⟨contained,fun s => ?_⟩
  constructor
  · rw [printed]
  · rw [sprite]
  · rw [sprite]

theorem grows_pure (a : α) : Grows (pure a : Action α) :=
  grows_of_kept (contained_pure a) (fun _ => rfl) fun _ => rfl

theorem grows_fail (fault : Fault) : Grows (fail fault : Action α) :=
  grows_of_kept (contained_fail fault) (fun _ => rfl) fun _ => rfl

theorem grows_read (f : Store → α) : Grows (read f) :=
  grows_of_kept (contained_read f) (fun _ => rfl) fun _ => rfl

theorem grows_observe (f : Turtle.Sprite → α) : Grows (observe f) :=
  grows_of_kept (contained_observe f) (fun _ => rfl) fun _ => rfl

theorem grows_renew (f : Store → α × Store) : Grows (renew f) :=
  grows_of_kept (contained_renew f) (fun _ => rfl) fun _ => rfl

theorem grows_alter (f : Store → Store) : Grows (alter f) := grows_renew _

theorem grows_inquire (f : Store → Except Fault α) : Grows (inquire f) :=
  grows_of_kept (contained_inquire f) (fun s => by rw [onScene_inquire]) fun s => by rw [onScene_inquire]

theorem grows_print (line : String) : Grows (print line) := by
  refine ⟨contained_print line,fun s => ⟨?_,List.prefix_rfl,List.prefix_rfl⟩⟩
  rw [onScene_print]
  simp

theorem grows_draw {f : Turtle.Sprite → Turtle.Sprite} (adds : Turtle.Sprite.Adds f) : Grows (draw f) :=
  ⟨contained_draw f,fun s => ⟨List.prefix_rfl,(adds s.sprite).1,(adds s.sprite).2⟩⟩

theorem grows_bind {action : Action α} {next : α → Action β} (first : Grows action)
    (second : ∀ a, Grows (next a)) : Grows (action >>= next) := by
  refine ⟨contained_bind first.contained fun a => (second a).contained,fun s => ?_⟩
  have grown := first.extends_scene s
  rw [onScene_bind action fun a => (second a).contained]
  rcases out : action.onScene s with ⟨fault | a,t⟩
  · rw [out] at grown
    exact grown
  · rw [out] at grown
    exact grown.trans ((second a).extends_scene t)

theorem grows_define (scope : FrameId) (name : String) (value : Value) : Grows (define scope name value) :=
  grows_bind (grows_inquire _) fun _ => grows_alter _

theorem grows_assign (scope : FrameId) (name : String) (value : Value) : Grows (assign scope name value) :=
  grows_bind (grows_inquire _) fun _ => grows_alter _

theorem grows_acting : Acting Grows where
  pure := grows_pure
  fail := grows_fail
  bind := grows_bind
  read _ := grows_read _
  inquire _ := grows_inquire _
  renew _ := grows_renew _
  observe := grows_observe
  draw stroke := grows_draw stroke.adds
  print := grows_print

end Action

theorem Builtin.grows_apply (function : Builtin) (args : List Value) : (function.apply args).Grows :=
  Action.grows_acting.apply function args

namespace Direct

variable {α β : Type}

/-- A computation that takes back nothing that was printed or drawn. -/
def Grows (d : Direct α) : Prop := ∀ s : Scene, s.Extends (d s).2

/-- The first computation stopped at a limit, short of where the second has got to. -/
def StoppedShort (first second : Except Interruption α × Scene) : Prop :=
  ∃ failure : Failure, first.1 = .error (.failed failure) ∧ failure.fault.OfLimit ∧ first.2.Extends second.2

/-- A computation beside one with limits at least as large: they agree, unless the first stops short. -/
structure Raised (d e : Direct α) : Prop where
  grows : Grows e
  agrees : ∀ s, d s = e s ∨ StoppedShort (d s) (e s)

variable {d e : Direct α} {f g : α → Direct β}

theorem grows_bind (first : Grows d) (second : ∀ a, Grows (f a)) : Grows (d >>= f) := by
  intro s
  have grown := first s
  rcases out : d s with ⟨failed | a,t⟩
  · rw [out] at grown
    rw [bind_error out]
    exact grown
  · rw [out] at grown
    rw [bind_ok out]
    exact grown.trans (second a t)

theorem grows_standStill : Grows standStill := fun _ => ⟨List.prefix_rfl,List.prefix_rfl,List.prefix_rfl⟩

theorem raised_of_grows (grows : Grows d) : Raised d d := ⟨grows,fun _ => .inl rfl⟩

theorem raised_pure (a : α) : Raised (pure a) (pure a) := raised_of_grows Scene.Extends.refl

theorem raised_fail (fault : Fault) : Raised (fail fault : Direct α) (fail fault) :=
  raised_of_grows Scene.Extends.refl

theorem raised_standStill : Raised standStill standStill := raised_of_grows grows_standStill

theorem raised_step {action : Action α} (grows : action.Grows) : Raised (step action) (step action) := by
  refine raised_of_grows fun s => ?_
  have grown := grows.extends_scene s
  unfold step
  rcases out : action.onScene s with ⟨fault | a,t⟩ <;> rw [out] at grown <;> exact grown

theorem raised_limit {fault : Fault} (ofLimit : fault.OfLimit) (grows : Grows e) : Raised (fail fault) e :=
  ⟨grows,fun s => .inr ⟨{ fault := fault },rfl,ofLimit,grows s⟩⟩

/-- Whether or not the first computation stops short, the second has printed and drawn as much. -/
theorem Raised.extends_scene (raised : Raised d e) (s : Scene) : (d s).2.Extends (e s).2 := by
  rcases raised.agrees s with same | ⟨_,_,_,short⟩
  · rw [same]
    exact .refl _
  · exact short

/-- Agreement carries over to a sequence: a first part that stopped short stops the whole there, and all
that the other side does later comes behind. -/
theorem raised_bind (first : Raised d e) (second : ∀ a, Raised (f a) (g a)) : Raised (d >>= f) (e >>= g) := by
  refine ⟨grows_bind first.grows fun a => (second a).grows,fun s => ?_⟩
  rcases out : e s with ⟨failed | a,t⟩
  · rw [bind_error out]
    rcases first.agrees s with same | ⟨failure,stopped,ofLimit,short⟩
    · rw [bind_error (same.trans out)]
      exact .inl rfl
    · rw [bind_error (t := (d s).2) (Prod.ext stopped rfl)]
      rw [out] at short
      exact .inr ⟨failure,rfl,ofLimit,short⟩
  · rw [bind_ok out]
    rcases first.agrees s with same | ⟨failure,stopped,ofLimit,short⟩
    · rw [bind_ok (same.trans out)]
      exact (second a).agrees t
    · rw [bind_error (t := (d s).2) (Prod.ext stopped rfl)]
      rw [out] at short
      exact .inr ⟨failure,rfl,ofLimit,short.trans ((second a).grows t)⟩

theorem locate_scene (span : Span) (d : Direct α) (s : Scene) : (d.locate span s).2 = (d s).2 := by
  unfold locate
  rcases d s with ⟨failed | a,t⟩ <;> rfl

theorem raised_locate (span : Span) (raised : Raised d e) : Raised (d.locate span) (e.locate span) := by
  refine ⟨fun s => ?_,fun s => ?_⟩
  · rw [locate_scene]
    exact raised.grows s
  · rcases raised.agrees s with same | ⟨failure,stopped,ofLimit,short⟩
    · left
      unfold locate
      rw [same]
    · refine .inr ⟨failure.locate span,?_,ofLimit,?_⟩
      · have out : d s = (.error (.failed failure),(d s).2) := Prod.ext stopped rfl
        unfold locate
        rw [out]
        rfl
      · rw [locate_scene,locate_scene]
        exact short

theorem raised_ite {c : Prop} [Decidable c] {d' e' : Direct α} (yes : Raised d e) (no : Raised d' e') :
    Raised (if c then d else d') (if c then e else e') := by
  split
  · exact yes
  · exact no

theorem grows_repeatWhile (limit : Nat) {test : Direct Bool} {body : Direct Flow} (tests : Grows test)
    (bodies : Grows body) : ∀ rounds, Grows (repeatWhile limit test body rounds)
  | 0 => grows_bind tests fun holds => by cases holds <;> exact Scene.Extends.refl
  | rounds + 1 => by
    refine grows_bind tests fun holds => ?_
    cases holds with
    | false => exact Scene.Extends.refl
    | true =>
      refine grows_bind bodies fun flow => ?_
      cases flow with
      | returned value => exact Scene.Extends.refl
      | next => exact grows_bind grows_standStill fun _ => grows_repeatWhile limit tests bodies rounds

/-- A loop with more rounds left does the same, unless the other one runs out of rounds. -/
theorem raised_repeatWhile (limit larger : Nat) {test test' : Direct Bool} {body body' : Direct Flow}
    (tests : Raised test test') (bodies : Raised body body') : ∀ {rounds more : Nat}, rounds ≤ more →
      Raised (repeatWhile limit test body rounds) (repeatWhile larger test' body' more)
  | 0,0,_ => raised_bind tests fun _ => raised_ite (raised_limit trivial Scene.Extends.refl) (raised_pure _)
  | 0,more + 1,_ => by
    refine raised_bind tests fun holds => raised_ite (raised_limit trivial ?_) (raised_pure _)
    refine grows_bind bodies.grows fun flow => ?_
    cases flow with
    | returned value => exact Scene.Extends.refl
    | next =>
      exact grows_bind grows_standStill fun _ => grows_repeatWhile larger tests.grows bodies.grows more
  | rounds + 1,more + 1,fewer => by
    refine raised_bind tests fun _ => raised_ite ?_ (raised_pure _)
    refine raised_bind bodies fun flow => ?_
    cases flow with
    | returned value => exact raised_pure _
    | next =>
      have left : rounds ≤ more := Nat.le_of_succ_le_succ fewer
      exact raised_bind raised_standStill fun _ => raised_repeatWhile limit larger tests bodies left

theorem raised_bindAll (scope : FrameId) :
    ∀ bindings : List (Name × Value), Raised (bindAll scope bindings) (bindAll scope bindings)
  | [] => raised_pure _
  | (_,_) :: rest =>
    raised_bind (raised_locate _ (raised_step (Action.grows_define _ _ _))) fun _ => raised_bindAll scope rest

end Direct

open Direct

/-! ### Expressions, statements and calls -/

section
variable {c larger : Config} {calls calls' : Calls}

/-- Calls beside calls with limits at least as large. -/
def CallsRaised (calls calls' : Calls) : Prop := ∀ closure args, Raised (calls closure args) (calls' closure args)

theorem call_raised (called : CallsRaised calls calls') (function : Function) (args : List Value) :
    Raised (function.direct calls args) (function.direct calls' args) := by
  unfold Function.direct
  refine raised_ite (raised_fail _) ?_
  cases function with
  | builtin b => exact raised_step (Builtin.grows_apply b args)
  | declared closure => exact called closure args

mutual

theorem eval_raised (called : CallsRaised calls calls') (scope : FrameId) :
    (e : Expr) → Raised (e.direct calls scope) (e.direct calls' scope)
  | .literal value span => by
    rw [Expr.direct,Expr.direct]
    exact raised_locate span (raised_pure _)
  | .grouping inner span => by
    rw [Expr.direct,Expr.direct]
    exact raised_locate span (eval_raised called scope inner)
  | .var name span => by
    rw [Expr.direct,Expr.direct]
    exact raised_locate span (raised_step (Action.grows_inquire _))
  | .assign name value span => by
    rw [Expr.direct,Expr.direct]
    refine raised_locate span (raised_bind (eval_raised called scope value) fun a => ?_)
    exact raised_bind (raised_step (Action.grows_assign _ _ _)) fun _ => raised_pure _
  | .unary op operand span => by
    rw [Expr.direct,Expr.direct]
    refine raised_locate span (raised_bind (eval_raised called scope operand) fun _ => ?_)
    exact raised_step (Action.grows_inquire _)
  | .binary op left right span => by
    rw [Expr.direct,Expr.direct]
    refine raised_locate span (raised_bind (eval_raised called scope left) fun _ => ?_)
    refine raised_bind (eval_raised called scope right) fun _ => ?_
    exact raised_step (Action.grows_inquire _)
  | .logical op left right span => by
    rw [Expr.direct,Expr.direct]
    refine raised_locate span (raised_bind (eval_raised called scope left) fun _ => ?_)
    exact raised_ite (raised_pure _) (eval_raised called scope right)
  | .call callee args span => by
    rw [Expr.direct,Expr.direct]
    refine raised_locate span (raised_bind (eval_raised called scope callee) fun value => ?_)
    cases value with
    | function function =>
      exact raised_bind (evalAll_raised called scope args) fun values => call_raised called function values
    | _ => exact raised_fail _
  | .array items span => by
    rw [Expr.direct,Expr.direct]
    refine raised_locate span (raised_bind (evalAll_raised called scope items) fun _ => ?_)
    exact raised_step (Action.grows_renew _)
  | .index target position span => by
    rw [Expr.direct,Expr.direct]
    refine raised_locate span (raised_bind (eval_raised called scope target) fun _ => ?_)
    refine raised_bind (eval_raised called scope position) fun _ => ?_
    exact raised_step (Action.grows_inquire _)

theorem evalAll_raised (called : CallsRaised calls calls') (scope : FrameId) :
    (es : List Expr) → Raised (Expr.directAll calls scope es) (Expr.directAll calls' scope es)
  | [] => by
    rw [Expr.directAll,Expr.directAll]
    exact raised_pure _
  | e :: es => by
    rw [Expr.directAll,Expr.directAll]
    refine raised_bind (eval_raised called scope e) fun _ => ?_
    exact raised_bind (evalAll_raised called scope es) fun _ => raised_pure _

end

theorem evalOption_raised (called : CallsRaised calls calls') (scope : FrameId) (e : Option Expr) :
    Raised (Expr.directOption calls scope e) (Expr.directOption calls' scope e) := by
  cases e with
  | some e => exact eval_raised called scope e
  | none => exact raised_pure _

mutual

theorem exec_raised (looser : c.Loosens larger) (called : CallsRaised calls calls') (scope : FrameId) :
    (s : Stmt) → Raised (s.direct c calls scope) (s.direct larger calls' scope)
  | .expression value span => by
    rw [Stmt.direct,Stmt.direct]
    refine raised_bind raised_standStill fun _ => raised_locate span ?_
    exact raised_bind (eval_raised called scope value) fun _ => raised_pure _
  | .var name initial span => by
    rw [Stmt.direct,Stmt.direct]
    refine raised_bind raised_standStill fun _ => raised_locate span ?_
    refine raised_bind (evalOption_raised called scope initial) fun _ => ?_
    exact raised_bind (raised_locate _ (raised_step (Action.grows_define _ _ _))) fun _ => raised_pure _
  | .function name params body span => by
    rw [Stmt.direct,Stmt.direct]
    refine raised_bind raised_standStill fun _ => raised_locate span ?_
    refine raised_bind (raised_step (Action.grows_renew _)) fun _ => ?_
    exact raised_bind (raised_locate _ (raised_step (Action.grows_define _ _ _))) fun _ => raised_pure _
  | .block body span => by
    rw [Stmt.direct,Stmt.direct]
    refine raised_bind raised_standStill fun _ => raised_locate span ?_
    exact raised_bind (raised_step (Action.grows_renew _)) fun inner => execAll_raised looser called inner body
  | .branch test yes no span => by
    rw [Stmt.direct,Stmt.direct]
    refine raised_bind raised_standStill fun _ => raised_locate span ?_
    refine raised_bind (eval_raised called scope test) fun _ => ?_
    exact raised_ite (exec_raised looser called scope yes) (execOption_raised looser called scope no)
  | .loop test body span => by
    rw [Stmt.direct,Stmt.direct]
    refine raised_bind raised_standStill fun _ => raised_locate span ?_
    refine raised_repeatWhile _ _ ?_ (exec_raised looser called scope body) looser.loops
    exact raised_bind (eval_raised called scope test) fun _ => raised_pure _
  | .giveBack value span => by
    rw [Stmt.direct,Stmt.direct]
    refine raised_bind raised_standStill fun _ => raised_locate span ?_
    exact raised_bind (evalOption_raised called scope value) fun _ => raised_pure _

theorem execOption_raised (looser : c.Loosens larger) (called : CallsRaised calls calls') (scope : FrameId) :
    (s : Option Stmt) → Raised (Stmt.directOption c calls scope s) (Stmt.directOption larger calls' scope s)
  | some s => by
    rw [Stmt.directOption,Stmt.directOption]
    exact exec_raised looser called scope s
  | none => by
    rw [Stmt.directOption,Stmt.directOption]
    exact raised_pure _

theorem execAll_raised (looser : c.Loosens larger) (called : CallsRaised calls calls') (scope : FrameId) :
    (ss : List Stmt) → Raised (Stmt.directAll c calls scope ss) (Stmt.directAll larger calls' scope ss)
  | [] => by
    rw [Stmt.directAll,Stmt.directAll]
    exact raised_pure _
  | s :: ss => by
    rw [Stmt.directAll,Stmt.directAll]
    refine raised_bind (exec_raised looser called scope s) fun flow => ?_
    cases flow with
    | returned value => exact raised_pure _
    | next => exact execAll_raised looser called scope ss

end

theorem callsWithin_succ_raised (looser : c.Loosens larger) {budget more : Nat}
    (called : CallsRaised (callsWithin c budget) (callsWithin larger more)) :
    CallsRaised (callsWithin c (budget + 1)) (callsWithin larger (more + 1)) := by
  intro function args
  rw [callsWithin,callsWithin]
  refine raised_bind (raised_step (Action.grows_renew _)) fun inner => ?_
  refine raised_bind (raised_bindAll inner _) fun _ => ?_
  refine raised_bind (execAll_raised looser called inner function.body) fun flow => ?_
  cases flow with
  | returned value => exact raised_pure _
  | next => exact raised_pure _

theorem callsWithin_grows (c : Config) (budget : Nat) : CallsRaised (callsWithin c budget) (callsWithin c budget) := by
  induction budget with
  | zero => exact fun _ _ => raised_fail _
  | succ budget ih => exact callsWithin_succ_raised (.refl c) ih

theorem callsWithin_raised (looser : c.Loosens larger) : ∀ {budget more : Nat}, budget ≤ more →
    CallsRaised (callsWithin c budget) (callsWithin larger more)
  | 0,more,_ => fun closure args => raised_limit trivial (callsWithin_grows larger more closure args).grows
  | _ + 1,_ + 1,fewer =>
    callsWithin_succ_raised looser (callsWithin_raised looser (Nat.le_of_succ_le_succ fewer))

/-- A program under limits at least as large does the same, unless it stopped at a limit. -/
theorem program_raised (looser : c.Loosens larger) (program : Program) :
    Raised (program.direct c) (program.direct larger) :=
  execAll_raised looser (callsWithin_raised looser looser.calls) Store.global program.statements

end

/-! ### Sessions -/

namespace Session

/-- A session is driven until its run is over, and no further. -/
inductive Completes : Session → Session → Prop where
  | ended {s : Session} (finished : s.state = .finished) : Completes s s
  | nudge {s t u : Session} (unfinished : s.state ≠ .finished) (nudge : Nudge s t) (rest : Completes t u) :
      Completes s u

/-- The run ended at a limit. -/
def AtLimit (s : Session) : Prop := ∃ failure, s.failure? = some failure ∧ failure.fault.OfLimit

variable {s : Session} {final : Except Interruption Flow × World}

/-- Where the run is over, the turtle is just as the run leaves it. -/
def LeftBy (final : Except Interruption Flow × World) (s : Session) : Prop :=
  s.state = .finished → s.world.sprite = final.2.sprite

theorem settleIn_leftBy (s : Session) (program : Program) (run : Run Flow) :
    (s.settleIn program run).LeftBy run.settled := by
  intro finished
  cases run with
  | done result w => rfl
  | waiting w resume => cases finished

/-- Only going on can bring a run to its end, and then it ends as it is bound to. -/
theorem BoundFor.resume_leftBy (bound : s.BoundFor final) (unfinished : s.state ≠ .finished) :
    s.resume.LeftBy final := by
  intro finished
  cases phase : s.phase with
  | suspended program m =>
    have settles := bound.settles
    rw [phase] at settles
    unfold Session.resume at finished ⊢
    rw [phase] at finished ⊢
    by_cases moving : s.gliding
    · simp only [moving,bound.sound.unasked] at finished
      exact absurd finished unfinished
    · simp only [moving,Bool.false_and] at finished ⊢
      have stands : s.world.still = s.world := by
        unfold World.still
        rw [Turtle.Sprite.stopGlide_of_still (Bool.not_eq_true _ ▸ moving)]
      rw [stands] at settles
      rw [← settles]
      exact s.settleIn_leftBy program (m s.world) finished
  | _ =>
    unfold Session.resume at finished
    rw [phase] at finished
    exact absurd finished unfinished

theorem BoundFor.nudge_leftBy {t : Session} (bound : s.BoundFor final) (unfinished : s.state ≠ .finished)
    (nudge : Nudge s t) : t.LeftBy final := by
  cases nudge with
  | update seconds => exact fun finished => absurd finished unfinished
  | stopGlide => exact fun finished => absurd finished unfinished
  | resume => exact bound.resume_leftBy unfinished
  | run suspended =>
    have same : s.run = s.resume := by
      unfold state at suspended
      unfold Session.run
      cases phase : s.phase <;> simp_all
    rw [same]
    exact bound.resume_leftBy unfinished

theorem Completes.sprite_eq {t : Session} (completes : Completes s t) (bound : s.BoundFor final)
    (leftBy : s.LeftBy final) : t.world.sprite = final.2.sprite := by
  induction completes with
  | ended finished => exact leftBy finished
  | nudge unfinished nudge _ ih => exact ih (bound.nudge nudge) (bound.nudge_leftBy unfinished nudge)

theorem Completes.driven {t : Session} (completes : Completes s t) : Driven s t ∧ t.state = .finished := by
  induction completes with
  | ended finished => exact ⟨.refl,finished⟩
  | nudge _ nudge _ ih => exact ⟨.head nudge ih.1,ih.2⟩

/-- A program that is ready ends as it does without waiting, however it is driven there. -/
theorem ready_ends {program : Program} (sound : s.Sound) (ready : s.phase = .ready program) :
    let reference := program.direct s.config s.world.scene
    (∀ t, Driven s.run t → t.state = .finished → t.report = .ofEnd reference.1 reference.2) ∧
      ∀ t, Completes s.run t → t.world.sprite = reference.2.sprite := by
  intro reference
  have started : s.run = s.settleIn program (program.script s.config s.world) := by
    unfold Session.run
    rw [ready]
    rfl
  have outside : s.world.monitor.blocks = [] := by
    have placed := sound.placed
    rwa [ready] at placed
  have bound := s.settleIn_boundFor program (script_proper s.config program sound.unasked outside)
  have leftBy := s.settleIn_leftBy program (program.script s.config s.world)
  obtain ⟨v,settled,scene,shown⟩ := script_follows s.config program sound.unasked
  rw [settled] at bound leftBy
  rw [started]
  refine ⟨fun t driven finished => ?_,fun t completes => ?_⟩
  · rw [(bound.driven driven).report finished shown]
    exact congrArg (Report.ofEnd reference.1) scene
  · rw [completes.sprite_eq bound leftBy]
    exact congrArg Scene.sprite scene

theorem extends_of_report {t u : Session} {result result' : Except Interruption Flow} {a b : Scene}
    (told : t.report = .ofEnd result a) (told' : u.report = .ofEnd result' b) (short : a.Extends b) :
    t.world.scene.Extends u.world.scene := by
  have printed : t.world.printed = a.printed := (congrArg Report.printed told :)
  have printed' : u.world.printed = b.printed := (congrArg Report.printed told' :)
  have canvas : t.world.sprite.canvas = a.sprite.canvas := (congrArg Report.canvas told :)
  have canvas' : u.world.sprite.canvas = b.sprite.canvas := (congrArg Report.canvas told' :)
  unfold World.scene
  constructor
  · rw [printed,printed']
    exact short.printed
  · rw [canvas,canvas']
    exact short.segments
  · rw [canvas,canvas']
    exact short.polygons

theorem atLimit_of_report {t : Session} {failure : Failure} {scene : Scene}
    (told : t.report = .ofEnd (.error (.failed failure)) scene) (ofLimit : failure.fault.OfLimit) : t.AtLimit := by
  have outcome : t.outcome? = some (.failed failure) := (congrArg Report.outcome told :)
  refine ⟨failure,?_,ofLimit⟩
  unfold failure?
  rw [outcome]

/-- The session with another configuration for what is to come. -/
def reconfigure (s : Session) (config : Config) : Session := { s with config := config }

theorem settleIn_reconfigure (s : Session) (config : Config) (program : Program) (run : Run Flow) :
    (s.reconfigure config).settleIn program run = (s.settleIn program run).reconfigure config := by
  cases run <;> rfl

theorem kill_reconfigure (s : Session) (config : Config) : (s.reconfigure config).kill = s.kill.reconfigure config := by
  have phase' : (s.reconfigure config).phase = s.phase := rfl
  unfold kill
  rw [phase']
  cases phase : s.phase with
  | suspended program m =>
    simp only [settleIn_reconfigure]
    rfl
  | _ => rfl

theorem unload_reconfigure (s : Session) (config : Config) :
    (s.reconfigure config).unload = s.unload.reconfigure config := by
  have abandoned : (s.reconfigure config).abandon = s.abandon.reconfigure config := by
    have phase' : (s.reconfigure config).phase = s.phase := rfl
    unfold abandon
    rw [phase']
    cases phase : s.phase with
    | suspended program m => exact s.kill_reconfigure config
    | _ => rfl
  unfold unload
  rw [abandoned]
  rfl

theorem unload_config (s : Session) : s.unload.config = s.config :=
  -- Configuring a session as it is configured changes nothing.
  (congrArg Session.config (s.unload_reconfigure s.config) :)

/-- A program that compiles is ready to run, in the configuration of the session, on a scene in which
nothing is defined but the library. -/
theorem compile_ready (s : Session) {source : String} {program : Program}
    (compiles : Program.compile source = .ok program) :
    (s.compile source).2.phase = .ready program ∧ (s.compile source).2.config = s.config ∧
      (s.compile source).2.world.scene = ⟨.initial s.config,s.unload.world.sprite,s.unload.world.printed⟩ := by
  unfold compile
  rw [compiles,← s.unload_config]
  exact ⟨rfl,rfl,rfl⟩

theorem compile_loosens {larger : Config} (looser : s.config.Loosens larger) {source : String} {program : Program}
    (compiles : Program.compile source = .ok program) :
    ((s.reconfigure larger).compile source).2.world.scene = (s.compile source).2.world.scene := by
  have store : Store.initial larger = Store.initial s.config := by
    rw [looser.same]
    rfl
  rw [((s.reconfigure larger).compile_ready compiles).2.2,(s.compile_ready compiles).2.2,unload_reconfigure]
  exact congrArg (Scene.mk · s.unload.world.sprite s.unload.world.printed) store

end Session

open Session

/-- Raising the limits changes nothing for a run that stayed within them, neither in what it prints, draws and
binds to its variables nor in what they lead to, and one that did not has printed and drawn a first part of
what it prints and draws with the limits raised. -/
theorem raising_limits (s : Session) (larger : Config) (looser : s.config.Loosens larger) (source : String)
    (program : Program) (compiles : Program.compile source = .ok program) :
    let low := (s.compile source).2.run
    let high := ((s.reconfigure larger).compile source).2.run
    (∀ t u, Driven low t → t.state = .finished → Driven high u → u.state = .finished →
      (¬ t.AtLimit → u.report = t.report ∧ u.world.store = t.world.store) ∧ t.world.scene.Extends u.world.scene) ∧
    ∀ t u, Completes low t → Completes high u → ¬ t.AtLimit → u.world.sprite = t.world.sprite := by
  intro low high
  obtain ⟨ready,config,_⟩ := s.compile_ready compiles
  obtain ⟨ready',config',_⟩ := (s.reconfigure larger).compile_ready compiles
  obtain ⟨lowEnds,lowSprite⟩ := ready_ends (s.compile_sound source) ready
  obtain ⟨highEnds,highSprite⟩ := ready_ends ((s.reconfigure larger).compile_sound source) ready'
  rw [config] at lowEnds lowSprite
  rw [config',s.compile_loosens looser compiles] at highEnds highSprite
  let scene := (s.compile source).2.world.scene
  have raised := program_raised looser program
  constructor
  · intro t u drivenLow overLow drivenHigh overHigh
    have toldLow := lowEnds t drivenLow overLow
    have toldHigh := highEnds u drivenHigh overHigh
    refine ⟨fun within => ?_,extends_of_report toldLow toldHigh (raised.extends_scene scene)⟩
    rcases raised.agrees scene with same | ⟨failure,stopped,ofLimit,_⟩
    · have told : u.report = t.report := by
        rw [toldHigh,toldLow,same]
        rfl
      exact ⟨told,(congrArg Report.store told :)⟩
    · rw [stopped] at toldLow
      exact absurd (atLimit_of_report toldLow ofLimit) within
  · intro t u completesLow completesHigh within
    rw [lowSprite t completesLow,highSprite u completesHigh]
    rcases raised.agrees scene with same | ⟨failure,stopped,ofLimit,_⟩
    · rw [same]
      rfl
    · have toldLow := lowEnds t completesLow.driven.1 completesLow.driven.2
      rw [stopped] at toldLow
      exact absurd (atLimit_of_report toldLow ofLimit) within

def threeRounds : String := "for (var i = 0; i < 3; i = i + 1) print(i);"

/-- Two rounds are too few for the loop and three are enough: what it prints within two comes first, and
beyond three the limit makes no difference. -/
theorem raising_limits_threeRounds :
    let two := ((Session.ofConfig { maxLoopIterations := 2 }).compile threeRounds).2.run
    let three := ((Session.ofConfig { maxLoopIterations := 3 }).compile threeRounds).2.run
    let many := ((Session.ofConfig {}).compile threeRounds).2.run
    two.world.printed = #["0","1"] ∧ two.world.printed.toList <+: three.world.printed.toList ∧
      three.world.printed = #["0","1","2"] ∧ many.report = three.report ∧ many.world.store = three.world.store := by
  intro two three many
  obtain ⟨program,compiles⟩ : ∃ program, Program.compile threeRounds = .ok program := by
    have compiled : (Program.compile threeRounds).toOption.isSome := by decide +kernel
    cases out : Program.compile threeRounds with
    | error diagnostics =>
      rw [out] at compiled
      cases compiled
    | ok program => exact ⟨program,rfl⟩
  have facts : two.state = .finished ∧ three.state = .finished ∧ many.state = .finished ∧
      three.failure? = none ∧ two.world.printed = #["0","1"] ∧ three.world.printed = #["0","1","2"] := by
    decide +kernel
  obtain ⟨overTwo,overThree,overMany,fine,printedTwo,printedThree⟩ := facts
  have within : ¬ three.AtLimit := by
    rintro ⟨failure,failed,_⟩
    rw [fine] at failed
    cases failed
  have fewer := raising_limits (.ofConfig { maxLoopIterations := 2 }) { maxLoopIterations := 3 }
    ⟨rfl,by decide,by decide⟩ threeRounds program compiles
  have enough := raising_limits (.ofConfig { maxLoopIterations := 3 }) {} ⟨rfl,by decide,by decide⟩ threeRounds
    program compiles
  refine ⟨printedTwo,?_,printedThree,?_⟩
  · exact (fewer.1 two three .refl overTwo .refl overThree).2.printed
  · exact (enough.1 three many .refl overThree .refl overMany).1 within

end TurtleScript
