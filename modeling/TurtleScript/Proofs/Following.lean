import TurtleScript.Proofs.Direct
import TurtleScript.Proofs.Evaluation

/-!
Programs with waits do what programs without waits do. A run is settled by going on at once, with the
turtle at the end of its way, wherever it waits. A computation follows a direct one if its settled runs
have the same results and the same scenes (`Follows`); every expression, statement and call follows its
direct counterpart, and so does every program (`script_follows`).
-/

namespace TurtleScript

namespace Turtle.Sprite

theorem stopGlide_of_still {s : Sprite} (still : s.gliding = false) : s.stopGlide = s := by
  have arrived : s.target = none := by
    unfold gliding at still
    exact Option.isSome_eq_false_iff.mp still |> Option.isNone_iff_eq_none.mp
  unfold stopGlide destination
  rw [arrived]
  cases s
  cases arrived
  rfl

@[simp] theorem gliding_stopGlide (s : Sprite) : s.stopGlide.gliding = false := rfl

@[simp] theorem stopGlide_stopGlide (s : Sprite) : s.stopGlide.stopGlide = s.stopGlide :=
  stopGlide_of_still s.gliding_stopGlide

end Turtle.Sprite

/-- The world with its turtle at the end of its way. -/
def World.still (w : World) : World := { w with sprite := w.sprite.stopGlide }

namespace Run

variable {α β : Type}

/-- How a run ends that goes on at once wherever it waits, with the turtle at the end of its way. -/
def settled : Run α → Except Interruption α × World
  | .done result w => (result,w)
  | .waiting w resume => (resume w.still).settled

theorem settled_andThen (run : Run α) (f : α → World → Run β) :
    (run.andThen f).settled =
      match run.settled with
      | (.ok a,w) => (f a w).settled
      | (.error e,w) => (.error e,w) := by
  induction run with
  | done result w => cases result <;> rfl
  | waiting w resume ih => exact ih w.still

theorem settled_atEnd (run : Run α) (f : World → World) :
    (run.atEnd f).settled = (run.settled.1,f run.settled.2) := by
  induction run with
  | done result w => rfl
  | waiting w resume ih => exact ih w.still

theorem settled_locate (span : Span) (run : Run α) :
    (run.locate span).settled = (run.settled.1.mapError (·.locate span),run.settled.2) := by
  induction run with
  | done result w => rfl
  | waiting w resume ih => exact ih w.still

end Run

namespace Script

variable {α β : Type}

/-- The world is in a scope and inside a number of calls, and nobody has asked the run to stop. -/
structure InPlace (scope : FrameId) (depth : Nat) (w : World) : Prop where
  scope : w.scope = scope
  callDepth : w.callDepth = depth
  unasked : w.monitor.killRequested = false

/-- A computation that does the same as a direct one in a scope and inside a number of calls. -/
def Follows (scope : FrameId) (depth : Nat) (m : Script α) (d : Direct α) : Prop :=
  ∀ w, InPlace scope depth w → ∃ v, (m w).settled = ((d w.scene).1,v) ∧ v.scene = (d w.scene).2 ∧
    InPlace scope depth v

variable {scope : FrameId} {depth : Nat}

theorem follows_pure (a : α) : Follows scope depth (pure a) (pure a) :=
  fun w inPlace => ⟨w,rfl,rfl,inPlace⟩

theorem follows_fail (fault : Fault) : Follows scope depth (fail fault : Script α) (.fail fault) :=
  fun w inPlace => ⟨w,rfl,rfl,inPlace⟩

theorem follows_ofAction {action : Action α} (contained : action.Contained) :
    Follows scope depth (ofAction action) (.step action) := by
  intro w inPlace
  rw [ofAction_eq contained]
  refine ⟨w.withScene (action.onScene w.scene).2,?_,?_,?_⟩
  · unfold Direct.step Run.settled
    rcases action.onScene w.scene with ⟨fault | a,t⟩ <;> rfl
  · unfold Direct.step
    rcases action.onScene w.scene with ⟨fault | a,t⟩ <;> rfl
  · exact ⟨inPlace.scope,inPlace.callDepth,inPlace.unasked⟩

theorem follows_bind {m : Script α} {f : α → Script β} {d : Direct α} {g : α → Direct β}
    (first : Follows scope depth m d) (second : ∀ a, Follows scope depth (f a) (g a)) :
    Follows scope depth (m >>= f) (d >>= g) := by
  intro w inPlace
  obtain ⟨v,settled,same,kept⟩ := first w inPlace
  have whole : ((m >>= f) w).settled = _ := Run.settled_andThen (m w) f
  rw [whole,settled]
  rcases out : d w.scene with ⟨e | a,t⟩
  · rw [out] at same
    rw [Direct.bind_error out]
    exact ⟨v,rfl,same,kept⟩
  · rw [out] at same
    rw [Direct.bind_ok out]
    obtain ⟨x,rest,sameRest,keptRest⟩ := second a v kept
    have scene : v.scene = t := same
    rw [scene] at rest sameRest
    exact ⟨x,rest,sameRest,keptRest⟩

theorem follows_locate (span : Span) {m : Script α} {d : Direct α} (inner : Follows scope depth m d) :
    Follows scope depth (locate span m) (d.locate span) := by
  intro w inPlace
  obtain ⟨v,settled,same,kept⟩ := inner w inPlace
  refine ⟨v,?_,?_,kept⟩
  · have whole : (locate span m w).settled = _ := Run.settled_locate span (m w)
    rw [whole,settled]
    unfold Direct.locate
    rcases d w.scene with ⟨e | a,t⟩ <;> rfl
  · rw [same]
    unfold Direct.locate
    rcases d w.scene with ⟨e | a,t⟩ <;> rfl

/-- Where nobody asks the run to stop, all that a checkpoint does in the end is to wait. -/
theorem settled_checkpoint {w : World} (unasked : w.monitor.killRequested = false) :
    (checkpoint w).settled =
      (.ok (),{ w with monitor := { w.monitor with scope := some w.scope }, sprite := w.sprite.stopGlide }) := by
  let told : World := { w with monitor := { w.monitor with scope := some w.scope } }
  have start : checkpoint w = awaitTurtle told := by
    show (checkKilled w).andThen _ = _
    unfold checkKilled
    rw [unasked]
    rfl
  rw [start]
  unfold awaitTurtle
  by_cases moving : told.sprite.gliding
  · rw [if_pos moving]
    show (checkKilled told.still).settled = _
    unfold checkKilled
    rw [if_neg]
    · rfl
    · show ¬ w.monitor.killRequested = true
      simp [unasked]
  · have stands : w.sprite.stopGlide = w.sprite := Turtle.Sprite.stopGlide_of_still (Bool.not_eq_true _ ▸ moving)
    rw [if_neg moving,stands]
    rfl

theorem follows_checkpoint : Follows scope depth checkpoint .standStill := by
  intro w inPlace
  rw [settled_checkpoint inPlace.unasked]
  exact ⟨_,rfl,rfl,inPlace.scope,inPlace.callDepth,inPlace.unasked⟩

theorem follows_inBlock {inner : FrameId} (length : Nat) {m : Script α} {d : Direct α}
    (body : Follows inner depth m d) : Follows scope depth (inBlock inner length m) d := by
  intro w inPlace
  obtain ⟨v,settled,same,kept⟩ := body
    { w with scope := inner, monitor := w.monitor.enterBlock length } ⟨rfl,inPlace.callDepth,inPlace.unasked⟩
  refine ⟨{ v with scope := w.scope, monitor := v.monitor.exitBlock },?_,same,?_⟩
  · show (Run.atEnd _ _).settled = _
    rw [Run.settled_atEnd,settled]
    rfl
  · exact ⟨inPlace.scope,kept.callDepth,kept.unasked⟩

theorem follows_inCall {m : Script α} {d : Direct α} (body : Follows scope (depth + 1) m d) :
    Follows scope depth (inCall m) d := by
  intro w inPlace
  obtain ⟨v,settled,same,kept⟩ := body { w with callDepth := w.callDepth + 1 }
    ⟨inPlace.scope,congrArg (· + 1) inPlace.callDepth,inPlace.unasked⟩
  refine ⟨{ v with callDepth := w.callDepth },?_,same,?_⟩
  · show (Run.atEnd _ _).settled = _
    rw [Run.settled_atEnd,settled]
    rfl
  · exact ⟨kept.scope,inPlace.callDepth,kept.unasked⟩

theorem follows_atStatement (index : Nat) (span : Span) {m : Script α} {d : Direct α}
    (rest : Follows scope depth m d) :
    Follows scope depth (do
      change fun w => { w with monitor := w.monitor.atStatement index span }
      m) d := by
  intro w inPlace
  have unasked : (w.monitor.atStatement index span).killRequested = false := by
    unfold Monitor.atStatement
    split <;> exact inPlace.unasked
  exact rest { w with monitor := w.monitor.atStatement index span }
    ⟨inPlace.scope,inPlace.callDepth,unasked⟩

/-- What the place tells of the world need not be looked up by the direct computation. -/
theorem follows_look {g : World → α} {a : α} (known : ∀ w, InPlace scope depth w → g w = a)
    {f : α → Script β} {d : Direct β} (rest : Follows scope depth (f a) d) :
    Follows scope depth (do f (← look g)) d := by
  intro w inPlace
  show ∃ v, (f (g w) w).settled = _ ∧ _
  rw [known w inPlace]
  exact rest w inPlace

theorem follows_ite {c : Prop} [Decidable c] {m n : Script α} {d e : Direct α}
    (yes : Follows scope depth m d) (no : Follows scope depth n e) :
    Follows scope depth (if c then m else n) (if c then d else e) := by
  split
  · exact yes
  · exact no

theorem follows_inScope {f : FrameId → Action α} (contained : (f scope).Contained) :
    Follows scope depth (inScope f) (.step (f scope)) :=
  follows_look (fun _ => InPlace.scope) (follows_ofAction contained)

theorem follows_repeatWhile (limit : Nat) {test : Script Bool} {body : Script Flow} {directTest : Direct Bool}
    {directBody : Direct Flow} (tests : Follows scope depth test directTest)
    (bodies : Follows scope depth body directBody) :
    ∀ rounds, Follows scope depth (repeatWhile limit test body rounds)
      (.repeatWhile limit directTest directBody rounds)
  | 0 => follows_bind tests fun _ => follows_ite (follows_fail _) (follows_pure _)
  | rounds + 1 => by
    refine follows_bind tests fun _ => follows_ite ?_ (follows_pure _)
    refine follows_bind bodies fun flow => ?_
    cases flow with
    | returned value => exact follows_pure _
    | next => exact follows_bind follows_checkpoint fun _ => follows_repeatWhile limit tests bodies rounds

theorem follows_bindAll (inner : FrameId) :
    ∀ bindings : List (Name × Value), Follows scope depth (bindAll inner bindings) (.bindAll inner bindings)
  | [] => follows_pure _
  | (_,_) :: rest =>
    follows_bind (follows_locate _ (follows_ofAction (Action.contained_define _ _ _))) fun _ =>
      follows_bindAll inner rest

end Script

open Script

/-! ### Expressions and statements -/

section
variable {invoke : Invoke} {calls : Direct.Calls} {depth : Nat}

/-- Calls from inside a number of calls follow direct calls, whatever scope they are made from. -/
def CallsFollow (depth : Nat) (invoke : Invoke) (calls : Direct.Calls) : Prop :=
  ∀ scope closure args, Follows scope depth (invoke closure args) (calls closure args)

theorem call_follows (called : CallsFollow depth invoke calls) (scope : FrameId) (function : Function)
    (args : List Value) : Follows scope depth (function.call invoke args) (function.direct calls args) := by
  unfold Function.call Function.direct
  refine follows_ite (follows_fail _) ?_
  cases function with
  | builtin b => exact follows_ofAction (Builtin.contained_apply b args)
  | declared c => exact called scope c args

mutual

theorem eval_follows (called : CallsFollow depth invoke calls) (scope : FrameId) :
    (e : Expr) → Follows scope depth (e.eval invoke) (e.direct calls scope)
  | .literal value span => by
    rw [Expr.eval,Expr.direct]
    exact follows_locate span (follows_pure _)
  | .grouping inner span => by
    rw [Expr.eval,Expr.direct]
    exact follows_locate span (eval_follows called scope inner)
  | .var name span => by
    rw [Expr.eval,Expr.direct]
    exact follows_locate span (follows_inScope (Action.contained_inquire _))
  | .assign name value span => by
    rw [Expr.eval,Expr.direct]
    refine follows_locate span (follows_bind (eval_follows called scope value) fun a => ?_)
    exact follows_bind (follows_inScope (Action.contained_assign _ _ _)) fun _ => follows_pure _
  | .unary op operand span => by
    rw [Expr.eval,Expr.direct]
    refine follows_locate span (follows_bind (eval_follows called scope operand) fun _ => ?_)
    exact follows_ofAction (Action.contained_inquire _)
  | .binary op left right span => by
    rw [Expr.eval,Expr.direct]
    refine follows_locate span (follows_bind (eval_follows called scope left) fun _ => ?_)
    refine follows_bind (eval_follows called scope right) fun _ => ?_
    exact follows_ofAction (Action.contained_inquire _)
  | .logical op left right span => by
    rw [Expr.eval,Expr.direct]
    refine follows_locate span (follows_bind (eval_follows called scope left) fun _ => ?_)
    exact follows_ite (follows_pure _) (eval_follows called scope right)
  | .call callee args span => by
    rw [Expr.eval,Expr.direct]
    refine follows_locate span (follows_bind (eval_follows called scope callee) fun value => ?_)
    cases value with
    | function function =>
      exact follows_bind (evalAll_follows called scope args) fun values =>
        call_follows called scope function values
    | _ => exact follows_fail _
  | .array items span => by
    rw [Expr.eval,Expr.direct]
    refine follows_locate span (follows_bind (evalAll_follows called scope items) fun _ => ?_)
    exact follows_ofAction (Action.contained_renew _)
  | .index target position span => by
    rw [Expr.eval,Expr.direct]
    refine follows_locate span (follows_bind (eval_follows called scope target) fun _ => ?_)
    refine follows_bind (eval_follows called scope position) fun _ => ?_
    exact follows_ofAction (Action.contained_inquire _)

theorem evalAll_follows (called : CallsFollow depth invoke calls) (scope : FrameId) :
    (es : List Expr) → Follows scope depth (Expr.evalAll invoke es) (Expr.directAll calls scope es)
  | [] => by
    rw [Expr.evalAll,Expr.directAll]
    exact follows_pure _
  | e :: es => by
    rw [Expr.evalAll,Expr.directAll]
    refine follows_bind (eval_follows called scope e) fun _ => ?_
    exact follows_bind (evalAll_follows called scope es) fun _ => follows_pure _

end

theorem evalOption_follows (called : CallsFollow depth invoke calls) (scope : FrameId) (e : Option Expr) :
    Follows scope depth (Expr.evalOption invoke e) (Expr.directOption calls scope e) := by
  cases e with
  | some e => exact eval_follows called scope e
  | none => exact follows_pure _

mutual

theorem exec_follows (config : Config) (called : CallsFollow depth invoke calls) (scope : FrameId) :
    (s : Stmt) → Follows scope depth (s.exec config invoke) (s.direct config calls scope)
  | .expression value span => by
    rw [Stmt.exec,Stmt.direct]
    refine follows_bind follows_checkpoint fun _ => follows_locate span ?_
    exact follows_bind (eval_follows called scope value) fun _ => follows_pure _
  | .var name initial span => by
    rw [Stmt.exec,Stmt.direct]
    refine follows_bind follows_checkpoint fun _ => follows_locate span ?_
    refine follows_bind (evalOption_follows called scope initial) fun _ => ?_
    refine follows_bind (follows_locate _ (follows_inScope ?_)) fun _ => follows_pure _
    exact Action.contained_define _ _ _
  | .function name params body span => by
    rw [Stmt.exec,Stmt.direct]
    refine follows_bind follows_checkpoint fun _ => follows_locate span ?_
    refine follows_look (fun _ => InPlace.scope)
      (follows_bind (follows_ofAction (Action.contained_renew _)) fun _ => ?_)
    refine follows_bind (follows_locate _ (follows_inScope ?_)) fun _ => follows_pure _
    exact Action.contained_define _ _ _
  | .block body span => by
    rw [Stmt.exec,Stmt.direct]
    refine follows_bind follows_checkpoint fun _ => follows_locate span ?_
    refine follows_look (fun _ => InPlace.scope)
      (follows_bind (follows_ofAction (Action.contained_renew _)) fun inner => ?_)
    exact follows_inBlock body.length (execAll_follows config called inner 0 body)
  | .branch test yes no span => by
    rw [Stmt.exec,Stmt.direct]
    refine follows_bind follows_checkpoint fun _ => follows_locate span ?_
    refine follows_bind (eval_follows called scope test) fun _ => ?_
    exact follows_ite (exec_follows config called scope yes) (execOption_follows config called scope no)
  | .loop test body span => by
    rw [Stmt.exec,Stmt.direct]
    refine follows_bind follows_checkpoint fun _ => follows_locate span ?_
    refine follows_repeatWhile _ ?_ (exec_follows config called scope body) _
    exact follows_bind (eval_follows called scope test) fun _ => follows_pure _
  | .giveBack value span => by
    rw [Stmt.exec,Stmt.direct]
    refine follows_bind follows_checkpoint fun _ => follows_locate span ?_
    exact follows_bind (evalOption_follows called scope value) fun _ => follows_pure _

theorem execOption_follows (config : Config) (called : CallsFollow depth invoke calls) (scope : FrameId) :
    (s : Option Stmt) →
      Follows scope depth (Stmt.execOption config invoke s) (Stmt.directOption config calls scope s)
  | some s => by
    rw [Stmt.execOption,Stmt.directOption]
    exact exec_follows config called scope s
  | none => by
    rw [Stmt.execOption,Stmt.directOption]
    exact follows_pure _

theorem execAll_follows (config : Config) (called : CallsFollow depth invoke calls) (scope : FrameId)
    (index : Nat) : (ss : List Stmt) →
      Follows scope depth (Stmt.execAll config invoke index ss) (Stmt.directAll config calls scope ss)
  | [] => by
    rw [Stmt.execAll,Stmt.directAll]
    exact follows_pure _
  | s :: ss => by
    rw [Stmt.execAll,Stmt.directAll]
    refine follows_atStatement index s.span (follows_bind (exec_follows config called scope s) fun flow => ?_)
    cases flow with
    | returned value => exact follows_pure _
    | next => exact execAll_follows config called scope (index + 1) ss

end

end

/-- Calls follow direct calls if as many may still be nested as the world leaves room for. -/
theorem invokeWithin_follows (config : Config) : ∀ (budget depth : Nat), budget + depth = config.maxCallDepth →
    CallsFollow depth (invokeWithin config budget) (Direct.callsWithin config budget)
  | 0,depth,_ => fun _ _ _ => follows_fail _
  | budget + 1,depth,room => by
    intro scope function args
    have deeper : budget + (depth + 1) = config.maxCallDepth := by omega
    have free : ¬ config.maxCallDepth ≤ depth := by omega
    rw [invokeWithin,Direct.callsWithin]
    refine follows_look (fun _ => InPlace.callDepth) ?_
    rw [if_neg free]
    refine follows_bind (follows_ofAction (Action.contained_renew _)) fun inner => ?_
    refine follows_bind (follows_bindAll inner _) fun _ => ?_
    have body := execAll_follows config (invokeWithin_follows config budget (depth + 1) deeper) inner 0
      function.body
    refine follows_bind (follows_inCall (follows_inBlock _ body)) fun flow => ?_
    cases flow with
    | returned value => exact follows_pure _
    | next => exact follows_pure _

/-- A program does in the end what it does without waiting, unless it is asked to stop, and leaves the
global scope to look at. -/
theorem script_follows (config : Config) (program : Program) {w : World}
    (unasked : w.monitor.killRequested = false) :
    ∃ v, (program.script config w).settled = ((program.direct config w.scene).1,v) ∧
      v.scene = (program.direct config w.scene).2 ∧ v.monitor.scope = some Store.global := by
  have called : CallsFollow 0 (invoke config) (.callsWithin config config.maxCallDepth) :=
    invokeWithin_follows config config.maxCallDepth 0 (Nat.add_zero _)
  have statements := execAll_follows config called Store.global 0 program.statements
  have block : Follows Store.global 0 (inBlock Store.global program.statements.length _) _ :=
    follows_inBlock program.statements.length statements
  obtain ⟨v,settled,same,_⟩ := block { w with callDepth := 0, scope := Store.global } ⟨rfl,rfl,unasked⟩
  refine ⟨{ v with monitor := { v.monitor with scope := some Store.global } },?_,same,rfl⟩
  have whole : (program.script config w).settled = _ := Run.settled_atEnd _ _
  rw [whole,settled]
  rfl

end TurtleScript
