import TurtleScript.Proofs.Machine
import TurtleScript.Proofs.Restoration

/-!
Machines carry out runs. A machine `Carries` out a run if it gets to where the run says in finitely many
steps, as often as it is let go on. Code that is put together from parts carries out a run that is put
together in the same way (`Carried.before`, `Carries.locate`, `Carries.exit`), so all expressions and
statements are carried out once the calls in them are (`eval_carried`, `exec_carried`). Calls are carried
out by induction on how many may still be nested (`invokeWithin_carried`).
-/

namespace TurtleScript

open Script

/-- The host lets a run that waits go on: the turtle stands still, or the run is to stop. -/
def World.LetsGo (w : World) : Prop := w.sprite.gliding = false ∨ w.monitor.killRequested = true

/-- The machine gets to where the run says in finitely many steps: it comes back to what is left to do
with the run's result, or waits as the run does and carries out what is behind the wait. -/
inductive Carries (config : Config) {α : Type} (rest : Stack α) : Machine → Run α → Prop where
  | done {m : Machine} {result : Except Interruption α} {v : World}
      (comes : m.Comes config (.giving result rest v)) : Carries config rest m (.done result v)
  | waiting {m : Machine} {β : Type} {code : Code β} {inner : Stack β} {u : World} {resume : World → Run α}
      (comes : m.Comes config (.waiting code inner u)) (gliding : u.sprite.gliding = true)
      (unasked : u.monitor.killRequested = false)
      (resumes : ∀ v, Handed u v → v.LetsGo → Carries config rest (.waiting code inner v) (resume v)) :
      Carries config rest m (.waiting u resume)

section
variable {config : Config} {α β : Type} {m : Machine}

theorem Carries.of_comes {rest : Stack α} {later : Machine} {run : Run α} (carries : Carries config rest later run)
    (comes : m.Comes config later) : Carries config rest m run := by
  cases carries with
  | done rests => exact .done (comes.trans rests)
  | waiting waits gliding unasked resumes => exact .waiting (comes.trans waits) gliding unasked resumes

theorem Carries.doing {rest : Stack α} {code : Code β} {inner : Stack β} {w : World} {run : Run α}
    (carries : Carries config rest (code.step config inner w) run) :
    Carries config rest (.doing code inner w) run :=
  carries.of_comes (.of_step rfl)

theorem carries_give (a : α) (rest : Stack α) (w : World) :
    Carries config rest (.give a rest w) (.done (.ok a) w) := .done (.refl _)

theorem carries_fail (fault : Fault) (rest : Stack α) (w : World) :
    Carries config rest (.fail fault rest w) (fail fault w) := .done (.refl _)

theorem carries_act (action : Action α) (rest : Stack α) (w : World) :
    Carries config rest (.act action rest w) (ofAction action w) := by
  unfold Machine.act ofAction
  rcases action.run.run w with ⟨result,v⟩
  cases result with
  | ok a => exact .done (.refl _)
  | error fault => exact .done (.refl _)

/-- A part in front of something else to do, which an interruption of the part passes by. -/
theorem Carries.andThen {rest : Stack β} {r : Rest α β} {run : Run α} {f : α → World → Run β}
    (carries : Carries config (rest.push r) m run)
    (passed : ∀ e w, r.drop e rest w = .giving (.error e) rest w)
    (next : ∀ a v, run.Ends (.ok a) v → Carries config rest (r.take config a rest v) (f a v)) :
    Carries config rest m (run.andThen f) := by
  induction carries with
  | @done m result v comes =>
    cases result with
    | ok a => exact (next a v (.done _ _)).of_comes (comes.trans (.of_step rfl))
    | error e =>
      refine .done (comes.trans (.of_step ?_))
      exact congrArg some (passed e v)
  | waiting comes gliding unasked resumes ih =>
    exact .waiting comes gliding unasked fun v handed letsGo =>
      ih v handed letsGo fun a x ends => next a x (.waiting handed ends)

theorem carries_ite {rest : Stack α} {c : Prop} [Decidable c] {yes no : Machine} {n o : Script α} {w : World}
    (holds : c → Carries config rest yes (n w)) (fails : ¬ c → Carries config rest no (o w)) :
    Carries config rest (if c then yes else no) ((if c then n else o : Script α) w) := by
  by_cases which : c
  · rw [if_pos which,if_pos which]
    exact holds which
  · rw [if_neg which,if_neg which]
    exact fails which

theorem Carries.locate {rest : Stack α} {span : Span} {run : Run α}
    (carries : Carries config (rest.push (.located span)) m run) : Carries config rest m (run.locate span) := by
  induction carries with
  | @done m result v comes =>
    cases result with
    | ok a => exact .done (comes.trans (.of_step rfl))
    | error e => exact .done (comes.trans (.of_step rfl))
  | waiting comes gliding unasked resumes ih => exact .waiting comes gliding unasked ih

theorem Carries.exit {rest : Stack α} {x : Exit} {run : Run α}
    (carries : Carries config (rest.push (.exit x)) m run) : Carries config rest m (run.atEnd x.leave) := by
  induction carries with
  | @done m result v comes =>
    cases result with
    | ok a => exact .done (comes.trans (.of_step rfl))
    | error e => exact .done (comes.trans (.of_step rfl))
  | waiting comes gliding unasked resumes ih => exact .waiting comes gliding unasked ih

theorem checkKilled_asked {w : World} (asked : w.monitor.killRequested = true) :
    checkKilled w = .done (.error .killed) { w with sprite := w.sprite.stopGlide } := if_pos asked

theorem checkKilled_unasked {w : World} (unasked : w.monitor.killRequested = false) :
    checkKilled w = .done (.ok ()) w := by
  rw [checkKilled,unasked]
  rfl

theorem carries_waiting {rest : Stack α} {code : Code α} {n : Script α} {v : World} (letsGo : v.LetsGo)
    (behind : Carries config rest (.doing code rest v) (n v)) :
    Carries config rest (.waiting code rest v) ((checkKilled v).andThen fun _ => n) := by
  cases asked : v.monitor.killRequested with
  | true =>
    rw [checkKilled_asked asked]
    exact .done (.of_step (by rw [Machine.step,asked]; rfl))
  | false =>
    have still : v.sprite.gliding = false := by
      rcases letsGo with still | killed
      · exact still
      · rw [asked] at killed
        cases killed
    rw [checkKilled_unasked asked]
    exact behind.of_comes (.of_step (by rw [Machine.step,asked,still]; rfl))

theorem carries_pause {rest : Stack α} {code : Code α} {n : Script α} {w : World}
    (behind : ∀ v, SamePlace w v → Carries config rest (.doing code rest v) (n v)) :
    Carries config rest (.pause code rest w) ((checkpoint >>= fun _ => n) w) := by
  show Carries config rest _ (Run.andThen (Run.andThen (checkKilled w) _) _)
  cases asked : w.monitor.killRequested with
  | true =>
    rw [checkKilled_asked asked,Machine.pause,asked]
    exact .done (.refl _)
  | false =>
    rw [checkKilled_unasked asked,Machine.pause,asked]
    show Carries config rest _ (Run.andThen (awaitTurtle _) _)
    cases gliding : w.sprite.gliding with
    | true =>
      rw [awaitTurtle,gliding]
      refine .waiting (.refl _) gliding asked fun v handed letsGo => ?_
      exact carries_waiting letsGo (behind v ⟨handed.scope,handed.callDepth,handed.blocks⟩)
    | false =>
      rw [awaitTurtle,gliding]
      exact behind _ ⟨rfl,rfl,rfl⟩

end

theorem Store.shownWithin_of_not_array {store : Store} {a : Value} (single : ∀ id, a ≠ .array id) (n : Nat) :
    store.shownWithin n a = store.shownWithin 0 a := by
  cases a with
  | array id => exact absurd rfl (single id)
  | _ => cases n <;> rfl

section
variable {config : Config} {rest : Stack String} {w : World}

theorem items_written {depth n : Nat}
    (inner : ∀ a pieces written, Machine.Comes config (.doing (.text (.value depth a :: pieces) written) rest w)
      (.doing (.text pieces (written ++ w.store.shownWithin n a)) rest w)) :
    ∀ (items : List Value) (pieces : List Piece) (written : String),
      Machine.Comes config (.doing (.text (Piece.items depth items ++ pieces) written) rest w)
        (.doing (.text pieces (written ++ String.intercalate ", " (items.map (w.store.shownWithin n)))) rest w)
  | [], pieces, written => by
    rw [List.map_nil,String.intercalate_nil,String.append_empty]
    exact .refl _
  | [a], pieces, written => by
    rw [List.map_singleton,String.intercalate_singleton]
    exact inner a pieces written
  | a :: b :: items, pieces, written => by
    have others := items_written inner (b :: items) pieces (written ++ w.store.shownWithin n a ++ ", ")
    rw [List.map_cons,List.map_cons,String.intercalate_cons_cons,← String.append_assoc,← String.append_assoc]
    exact ((inner a _ written).trans (.of_step rfl)).trans others

/-- A value inside a number of arrays is written, those that contain themselves included: the number
grows with every array that is looked into. -/
theorem value_written (n : Nat) : ∀ depth : Nat, Store.shownNesting - depth = n →
    ∀ (a : Value) (pieces : List Piece) (written : String),
      Machine.Comes config (.doing (.text (.value depth a :: pieces) written) rest w)
        (.doing (.text pieces (written ++ w.store.shownWithin n a)) rest w) := by
  have single : ∀ depth a pieces written, (∀ id, a ≠ Value.array id) →
      Machine.Comes config (.doing (.text (.value depth a :: pieces) written) rest w)
        (.doing (.text pieces (written ++ w.store.shownWithin 0 a)) rest w) := by
    intro depth a pieces written single
    refine .of_step ?_
    cases a with
    | array id => exact absurd rfl (single id)
    | _ => rfl
  induction n with
  | zero =>
    intro depth deep a pieces written
    cases a with
    | array id =>
      have capped : Store.shownNesting ≤ depth := by omega
      exact .of_step (congrArg some (if_pos capped))
    | _ => exact single depth _ pieces written (by intro id same; cases same)
  | succ n ih =>
    intro depth deep a pieces written
    cases a with
    | array id =>
      have shallow : ¬ Store.shownNesting ≤ depth := by omega
      have opened : Machine.Comes config (.doing (.text (.value depth (.array id) :: pieces) written) rest w)
          (.doing (.text (Piece.items (depth + 1) (w.store.items id) ++ .text "]" :: pieces) (written ++ "[")) rest w) :=
        .trans (.of_step (congrArg some (if_neg shallow))) (.of_step rfl)
      have items := items_written (ih (depth + 1) (by omega)) (w.store.items id) (.text "]" :: pieces) (written ++ "[")
      rw [Store.shownWithin,← String.append_assoc,← String.append_assoc]
      exact (opened.trans items).trans (.of_step rfl)
    | _ =>
      rw [Store.shownWithin_of_not_array (by intro id same; cases same)]
      exact single depth _ pieces written (by intro id same; cases same)

theorem text_written (a : Value) :
    Machine.Comes config (.doing (.text [.value 0 a] "") rest w) (.give (w.store.shown a) rest w) := by
  have written : Machine.Comes config (.doing (.text [.value 0 a] "") rest w) _ :=
    value_written Store.shownNesting 0 rfl a [] ""
  rw [String.empty_append] at written
  exact written.trans (.of_step rfl)

end

/-! ### Expressions -/

/-- Wherever at most so many calls may still be nested, the code carries out the computation. -/
def Carried (config : Config) (budget : Nat) {α : Type} (code : Code α) (m : Script α) : Prop :=
  ∀ rest w, config.maxCallDepth ≤ budget + w.callDepth → Carries config rest (.doing code rest w) (m w)

section
variable {config : Config} {budget : Nat}

theorem Carried.before {α β : Type} {code : Code α} {m : Script α} (first : Carried config budget code m)
    (steady : Steady m) {r : Rest α β} {rest : Stack β} {f : α → Script β} {w : World}
    (room : config.maxCallDepth ≤ budget + w.callDepth)
    (passed : ∀ e w, r.drop e rest w = .giving (.error e) rest w)
    (next : ∀ a v, config.maxCallDepth ≤ budget + v.callDepth → Carries config rest (r.take config a rest v) (f a v)) :
    Carries config rest (.doing code (rest.push r) w) ((m >>= f) w) := by
  refine (first (rest.push r) w room).andThen passed fun a v ended => next a v ?_
  rw [(steady.ends ended).callDepth]
  exact room

def CallsCarried (config : Config) (budget : Nat) : Prop :=
  ∀ c args, Carried config budget (.call c args) (invokeWithin config budget c args)

theorem function_carries (calls : CallsCarried config budget) (f : Function) (args : List Value) {rest : Stack Value}
    {w : World} (room : config.maxCallDepth ≤ budget + w.callDepth) :
    Carries config rest (f.begin args rest w) (f.call (invokeWithin config budget) args w) := by
  refine carries_ite (fun _ => carries_fail _ _ _) fun _ => ?_
  cases f with
  | declared c => exact calls c args rest w room
  | builtin b =>
    -- The two functions that write a value out take more than one step.
    cases b with
    | print =>
      match args with
      | [a] => exact (carries_act _ _ _).of_comes ((text_written a).trans (.of_step rfl))
      | [] | _ :: _ :: _ => exact carries_act _ _ _
    | toString =>
      match args with
      | [a] => exact (carries_give _ _ _).of_comes ((text_written a).trans (.of_step rfl))
      | [] | _ :: _ :: _ => exact carries_act _ _ _
    | _ => exact carries_act _ _ _

mutual

theorem eval_carried (calls : CallsCarried config budget) :
    (e : Expr) → Carried config budget (.expr e) (e.eval (invokeWithin config budget))
  | .literal value span, rest, w, room => by
    rw [Expr.eval]
    exact .doing (carries_give _ _ _).locate
  | .grouping inner span, rest, w, room => by
    rw [Expr.eval]
    exact .doing (eval_carried calls inner _ w room).locate
  | .var name span, rest, w, room => by
    rw [Expr.eval]
    exact .doing (carries_act _ _ _).locate
  | .assign name value span, rest, w, room => by
    rw [Expr.eval]
    refine .doing (Carries.locate ?_)
    refine (eval_carried calls value).before (eval_steady config budget value) room (fun _ _ => rfl) fun a v _ => ?_
    exact (carries_act (Action.assign v.scope name a) _ v).andThen (fun _ _ => rfl) fun _ x _ => carries_give a _ x
  | .unary op operand span, rest, w, room => by
    rw [Expr.eval]
    refine .doing (Carries.locate ?_)
    refine (eval_carried calls operand).before (eval_steady config budget operand) room (fun _ _ => rfl) ?_
    exact fun a v _ => carries_act _ _ v
  | .binary op left right span, rest, w, room => by
    rw [Expr.eval]
    refine .doing (Carries.locate ?_)
    refine (eval_carried calls left).before (eval_steady config budget left) room (fun _ _ => rfl) fun a v room => ?_
    refine (eval_carried calls right).before (eval_steady config budget right) room (fun _ _ => rfl) ?_
    exact fun b x _ => carries_act _ _ x
  | .logical op left right span, rest, w, room => by
    rw [Expr.eval]
    refine .doing (Carries.locate ?_)
    refine (eval_carried calls left).before (eval_steady config budget left) room (fun _ _ => rfl) fun a v room => ?_
    exact carries_ite (fun _ => carries_give _ _ _) fun _ => eval_carried calls right _ v room
  | .call callee args span, rest, w, room => by
    rw [Expr.eval]
    refine .doing (Carries.locate ?_)
    refine (eval_carried calls callee).before (eval_steady config budget callee) room (fun _ _ => rfl) fun a v room => ?_
    cases a with
    | function f =>
      refine (evalAll_carried calls args).before (evalAll_steady config budget args) room (fun _ _ => rfl) ?_
      exact fun values x room => function_carries calls f values room
    | _ => exact carries_fail _ _ _
  | .array items span, rest, w, room => by
    rw [Expr.eval]
    refine .doing (Carries.locate ?_)
    refine (evalAll_carried calls items).before (evalAll_steady config budget items) room (fun _ _ => rfl) ?_
    exact fun values v _ => carries_act (Action.renew (·.newArray values)) _ v
  | .index target position span, rest, w, room => by
    rw [Expr.eval]
    refine .doing (Carries.locate ?_)
    refine (eval_carried calls target).before (eval_steady config budget target) room (fun _ _ => rfl) fun a v room => ?_
    refine (eval_carried calls position).before (eval_steady config budget position) room (fun _ _ => rfl) ?_
    exact fun b x _ => carries_act _ _ x

theorem evalAll_carried (calls : CallsCarried config budget) :
    (es : List Expr) → Carried config budget (.exprs es) (Expr.evalAll (invokeWithin config budget) es)
  | [], rest, w, room => by
    rw [Expr.evalAll]
    exact .doing (carries_give _ _ _)
  | e :: es, rest, w, room => by
    rw [Expr.evalAll]
    refine .doing ?_
    refine (eval_carried calls e).before (eval_steady config budget e) room (fun _ _ => rfl) fun a v room => ?_
    refine (evalAll_carried calls es).before (evalAll_steady config budget es) room (fun _ _ => rfl) ?_
    exact fun values x _ => carries_give _ _ x

end

end

theorem bind_map_bind {α β γ : Type} (m : Script α) (f : α → β) (g : β → Script γ) :
    ((do return f (← m) : Script β) >>= g) = m >>= fun a => g (f a) :=
  funext fun w => Run.andThen_andThen (m w) _ g

section
variable {config : Config} {budget : Nat}

theorem carried_stmt {s : Stmt} {n : Script Flow}
    (begun : ∀ rest v, config.maxCallDepth ≤ budget + v.callDepth → Carries config rest (s.begin rest v) (n v)) :
    Carried config budget (.stmt s) (do checkpoint; locate s.span n) := by
  intro rest w room
  refine .doing (carries_pause fun v same => .doing (begun _ v ?_).locate)
  rw [same.callDepth]
  exact room

theorem evalOption_carries (calls : CallsCarried config budget) (e : Option Expr) {rest : Stack Value} {w : World}
    (room : config.maxCallDepth ≤ budget + w.callDepth) :
    Carries config rest (.option e rest w) (Expr.evalOption (invokeWithin config budget) e w) := by
  cases e with
  | some e => exact eval_carried calls e rest w room
  | none => exact carries_give _ _ _

theorem define_carries (name : Name) (a : Value) (rest : Stack Flow) (w : World) :
    Carries config rest ((Rest.initial name).take config a rest w)
      ((do locate name.span (inScope (Action.define · name.text a)); return .next : Script Flow) w) :=
  (carries_act (Action.define w.scope name.text a) _ w).locate.andThen (fun _ _ => rfl) fun _ v _ => carries_give _ _ v

theorem enter_carries {m : Script Flow} {ss : List Stmt} (listed : Carried config budget (.stmts 0 ss) m)
    (scope : FrameId) {rest : Stack Flow} {w : World} (room : config.maxCallDepth ≤ budget + w.callDepth) :
    Carries config rest (.enter scope ss rest w) (inBlock scope ss.length m w) := by
  have inner := listed (rest.push (.exit (.block w.scope)))
    { w with scope := scope, monitor := w.monitor.enterBlock ss.length } room
  exact inner.exit

theorem rounds_carried (calls : CallsCarried config budget) (test : Expr) {body : Stmt}
    (executed : Carried config budget (.stmt body) (body.exec config (invokeWithin config budget))) (left : Nat) :
    ∀ begun, begun + left = config.maxLoopIterations →
      Carried config budget (.rounds test body begun)
        (repeatWhile config.maxLoopIterations (do return (← test.eval (invokeWithin config budget)).truthy)
          (body.exec config (invokeWithin config budget)) left) := by
  induction left with
  | zero =>
    intro begun counted rest w room
    rw [repeatWhile,bind_map_bind]
    refine .doing ?_
    refine (eval_carried calls test).before (eval_steady config budget test) room (fun _ _ => rfl) fun a v _ => ?_
    refine carries_ite (fun _ => ?_) fun _ => carries_give _ _ _
    rw [if_pos (by omega)]
    exact carries_fail _ _ _
  | succ left ih =>
    intro begun counted rest w room
    rw [repeatWhile,bind_map_bind]
    refine .doing ?_
    refine (eval_carried calls test).before (eval_steady config budget test) room (fun _ _ => rfl) fun a v room => ?_
    refine carries_ite (fun _ => ?_) fun _ => carries_give _ _ _
    rw [if_neg (by omega)]
    refine executed.before (exec_steady config budget body) room (fun _ _ => rfl) fun flow x room => ?_
    cases flow with
    | returned a => exact carries_give _ _ _
    | next =>
      refine .doing (carries_pause fun y same => ih (begun + 1) (by omega) rest y ?_)
      rw [same.callDepth]
      exact room

mutual

theorem exec_carried (calls : CallsCarried config budget) :
    (s : Stmt) → Carried config budget (.stmt s) (s.exec config (invokeWithin config budget))
  | .expression value span => by
    rw [Stmt.exec]
    refine carried_stmt fun rest v room => ?_
    refine (eval_carried calls value).before (eval_steady config budget value) room (fun _ _ => rfl) ?_
    exact fun _ x _ => carries_give _ _ x
  | .var name initial span => by
    rw [Stmt.exec]
    refine carried_stmt fun rest v room => ?_
    exact (evalOption_carries calls initial room).andThen (fun _ _ => rfl) fun a x _ => define_carries name a rest x
  | .function name params body span => by
    rw [Stmt.exec]
    refine carried_stmt fun rest v room => ?_
    have made : Carries config (rest.push (.initial name)) _ _ :=
      carries_act (Action.renew (·.newClosure v.scope name params body)) _ v
    exact made.andThen (fun _ _ => rfl) fun a x _ => define_carries name a rest x
  | .block body span => by
    rw [Stmt.exec]
    refine carried_stmt fun rest v room => ?_
    show Carries config rest _ ((newScope v.scope v).andThen fun scope => inBlock scope body.length _)
    have made : Carries config (rest.push (.entered body)) _ (newScope v.scope v) := carries_act _ _ v
    refine made.andThen (fun _ _ => rfl) fun scope x ended => ?_
    refine enter_carries (execAll_carried calls 0 body) scope ?_
    rw [((steady_compositional.newScope v.scope).ends ended).callDepth]
    exact room
  | .branch test yes no span => by
    rw [Stmt.exec]
    refine carried_stmt fun rest v room => ?_
    refine (eval_carried calls test).before (eval_steady config budget test) room (fun _ _ => rfl) fun a x room => ?_
    refine carries_ite (fun _ => exec_carried calls yes rest x room) fun _ => ?_
    cases no with
    | some no => exact exec_carried calls no rest x room
    | none => exact carries_give _ _ _
  | .loop test body span => by
    rw [Stmt.exec]
    refine carried_stmt fun rest v room => ?_
    exact rounds_carried calls test (exec_carried calls body) config.maxLoopIterations 0 (Nat.zero_add _) rest v room
  | .giveBack value span => by
    rw [Stmt.exec]
    refine carried_stmt fun rest v room => ?_
    exact (evalOption_carries calls value room).andThen (fun _ _ => rfl) fun a x _ => carries_give _ _ x

theorem execAll_carried (calls : CallsCarried config budget) :
    (index : Nat) → (ss : List Stmt) →
      Carried config budget (.stmts index ss) (Stmt.execAll config (invokeWithin config budget) index ss)
  | index, [], rest, w, room => by
    rw [Stmt.execAll]
    exact .doing (carries_give _ _ _)
  | index, s :: ss, rest, w, room => by
    rw [Stmt.execAll]
    refine .doing ?_
    refine (exec_carried calls s).before (exec_steady config budget s) ?_ (fun _ _ => rfl) fun flow v room => ?_
    · exact room
    · cases flow with
      | returned a => exact carries_give _ _ _
      | next => exact execAll_carried calls (index + 1) ss rest v room

end

theorem bindAll_carries (scope : FrameId) : ∀ (bindings : List (Name × Value)) (rest : Stack Unit) (w : World),
    Carries config rest (.doing (.params scope bindings) rest w) (bindAll scope bindings w)
  | [], _, _ => .doing (carries_give _ _ _)
  | (name,a) :: bindings, rest, w =>
    .doing ((carries_act (Action.define scope name.text a) _ w).locate.andThen (fun _ _ => rfl) fun _ v _ =>
      bindAll_carries scope bindings rest v)

/-- The body of a function runs with one nested call less in front of it. Once there is none left, the
counter says so as well. -/
theorem invokeWithin_carried (config : Config) : ∀ budget, CallsCarried config budget
  | 0, c, args, rest, w, room => by
    have full : config.maxCallDepth ≤ w.callDepth := by omega
    refine .doing ?_
    rw [Code.step,if_pos full]
    exact carries_fail _ _ _
  | budget + 1, c, args, rest, w, room => by
    rw [invokeWithin]
    refine .doing (carries_ite (fun _ => carries_fail _ _ _) fun _ => ?_)
    refine (carries_act (Action.renew (·.child c.scope)) _ w).andThen (fun _ _ => rfl) fun scope v made => ?_
    refine (bindAll_carries scope (c.params.zip args) _ v).andThen (fun _ _ => rfl) fun _ x bound => ?_
    have listed := execAll_carried (invokeWithin_carried config budget) 0 c.body
    have same := ((steady_compositional.newScope c.scope).ends made).trans
      ((steady_compositional.bindAll scope _).ends bound)
    have inside : config.maxCallDepth ≤ budget + (x.callDepth + 1) := by
      rw [same.callDepth]
      omega
    refine (enter_carries listed scope inside).exit.andThen (fun _ _ => rfl) fun flow y _ => ?_
    cases flow with
    | returned a => exact carries_give _ _ _
    | next => exact carries_give _ _ _

end

theorem script_carried (config : Config) (program : Program) (w : World) :
    Carries config .empty (program.machine w) (program.script config w) := by
  have listed := execAll_carried (invokeWithin_carried config config.maxCallDepth) 0 program.statements
  exact (enter_carries listed Store.global (Nat.le_add_right _ _)).exit

end TurtleScript
