import Mathlib.Logic.Relation
import TurtleScript.Proofs.Restoration

/-!
The moments of an execution: which part of a program begins in which world, and inside how many calls
of declared functions. While one part is executed it begins others (`Begins`), one after the other
in the worlds that those before them have left; only the body of a function begins inside one call
more. Every wait of an execution is at the checkpoint of such a moment (`exec_parked`).
-/

namespace TurtleScript

open Script

/-- How functions are called by code inside a number of calls. -/
def invokeInside (config : Config) (calls : Nat) : Invoke :=
  invokeWithin config (config.maxCallDepth - calls)

/-- A part of a program that is executed by itself. -/
inductive Task where
  | expr (e : Expr)
  /-- Expressions from left to right. -/
  | exprs (es : List Expr)
  /-- A statement, at its checkpoint. -/
  | stmt (s : Stmt)
  /-- A statement behind its checkpoint. -/
  | inside (s : Stmt)
  /-- The statements of a list from an index on. -/
  | stmts (index : Nat) (ss : List Stmt)
  /-- A loop in front of its test, with a number of rounds left. -/
  | rounds (test : Expr) (body : Stmt) (left : Nat)
  /-- A loop at the checkpoint between two rounds. -/
  | between (test : Expr) (body : Stmt) (left : Nat)
  /-- A declared function with its arguments. -/
  | call (function : Closure) (args : List Value)

/-- The beginning of a task in a world, inside a number of calls. -/
structure Moment where
  calls : Nat
  task : Task
  world : World

/-- While the task of the first moment is executed, that of the second one begins. -/
inductive Begins (config : Config) : Moment → Moment → Prop where
  | grouping {n : Nat} {inner : Expr} {span : Span} {w : World} :
      Begins config ⟨n,.expr (.grouping inner span),w⟩ ⟨n,.expr inner,w⟩
  | assigned {n : Nat} {name : String} {value : Expr} {span : Span} {w : World} :
      Begins config ⟨n,.expr (.assign name value span),w⟩ ⟨n,.expr value,w⟩
  | operand {n : Nat} {op : UnaryOp} {e : Expr} {span : Span} {w : World} :
      Begins config ⟨n,.expr (.unary op e span),w⟩ ⟨n,.expr e,w⟩
  | left {n : Nat} {op : BinaryOp} {left right : Expr} {span : Span} {w : World} :
      Begins config ⟨n,.expr (.binary op left right span),w⟩ ⟨n,.expr left,w⟩
  | right {n : Nat} {op : BinaryOp} {left right : Expr} {span : Span} {w v : World} {a : Value}
      (ended : (left.eval (invokeInside config n) w).Ends (.ok a) v) :
      Begins config ⟨n,.expr (.binary op left right span),w⟩ ⟨n,.expr right,v⟩
  | decider {n : Nat} {op : LogicalOp} {left right : Expr} {span : Span} {w : World} :
      Begins config ⟨n,.expr (.logical op left right span),w⟩ ⟨n,.expr left,w⟩
  | decided {n : Nat} {op : LogicalOp} {left right : Expr} {span : Span} {w v : World} {a : Value}
      (ended : (left.eval (invokeInside config n) w).Ends (.ok a) v) (unsettled : ¬ op.settledBy a) :
      Begins config ⟨n,.expr (.logical op left right span),w⟩ ⟨n,.expr right,v⟩
  | callee {n : Nat} {callee : Expr} {args : List Expr} {span : Span} {w : World} :
      Begins config ⟨n,.expr (.call callee args span),w⟩ ⟨n,.expr callee,w⟩
  | arguments {n : Nat} {callee : Expr} {args : List Expr} {span : Span} {w v : World} {f : Function}
      (ended : (callee.eval (invokeInside config n) w).Ends (.ok (.function f)) v) :
      Begins config ⟨n,.expr (.call callee args span),w⟩ ⟨n,.exprs args,v⟩
  | call {n : Nat} {callee : Expr} {args : List Expr} {span : Span} {w v u : World} {c : Closure}
      {values : List Value}
      (ended : (callee.eval (invokeInside config n) w).Ends (.ok (.function (.declared c))) v)
      (evaluated : (Expr.evalAll (invokeInside config n) args v).Ends (.ok values) u)
      (fits : values.length = c.params.length) :
      Begins config ⟨n,.expr (.call callee args span),w⟩ ⟨n,.call c values,u⟩
  | items {n : Nat} {items : List Expr} {span : Span} {w : World} :
      Begins config ⟨n,.expr (.array items span),w⟩ ⟨n,.exprs items,w⟩
  | target {n : Nat} {target position : Expr} {span : Span} {w : World} :
      Begins config ⟨n,.expr (.index target position span),w⟩ ⟨n,.expr target,w⟩
  | position {n : Nat} {target position : Expr} {span : Span} {w v : World} {a : Value}
      (ended : (target.eval (invokeInside config n) w).Ends (.ok a) v) :
      Begins config ⟨n,.expr (.index target position span),w⟩ ⟨n,.expr position,v⟩
  | first {n : Nat} {e : Expr} {es : List Expr} {w : World} :
      Begins config ⟨n,.exprs (e :: es),w⟩ ⟨n,.expr e,w⟩
  | others {n : Nat} {e : Expr} {es : List Expr} {w v : World} {a : Value}
      (ended : (e.eval (invokeInside config n) w).Ends (.ok a) v) :
      Begins config ⟨n,.exprs (e :: es),w⟩ ⟨n,.exprs es,v⟩
  | enter {n : Nat} {s : Stmt} {w v : World} (passed : (checkpoint w).Ends (.ok ()) v) :
      Begins config ⟨n,.stmt s,w⟩ ⟨n,.inside s,v⟩
  | effect {n : Nat} {value : Expr} {span : Span} {w : World} :
      Begins config ⟨n,.inside (.expression value span),w⟩ ⟨n,.expr value,w⟩
  | initial {n : Nat} {name : Name} {value : Expr} {span : Span} {w : World} :
      Begins config ⟨n,.inside (.var name (some value) span),w⟩ ⟨n,.expr value,w⟩
  | result {n : Nat} {value : Expr} {span : Span} {w : World} :
      Begins config ⟨n,.inside (.giveBack (some value) span),w⟩ ⟨n,.expr value,w⟩
  | test {n : Nat} {test : Expr} {yes : Stmt} {no : Option Stmt} {span : Span} {w : World} :
      Begins config ⟨n,.inside (.branch test yes no span),w⟩ ⟨n,.expr test,w⟩
  | yes {n : Nat} {test : Expr} {yes : Stmt} {no : Option Stmt} {span : Span} {w v : World} {a : Value}
      (ended : (test.eval (invokeInside config n) w).Ends (.ok a) v) (holds : a.truthy) :
      Begins config ⟨n,.inside (.branch test yes no span),w⟩ ⟨n,.stmt yes,v⟩
  | no {n : Nat} {test : Expr} {yes no : Stmt} {span : Span} {w v : World} {a : Value}
      (ended : (test.eval (invokeInside config n) w).Ends (.ok a) v) (fails : ¬ a.truthy) :
      Begins config ⟨n,.inside (.branch test yes (some no) span),w⟩ ⟨n,.stmt no,v⟩
  | loop {n : Nat} {test : Expr} {body : Stmt} {span : Span} {w : World} :
      Begins config ⟨n,.inside (.loop test body span),w⟩ ⟨n,.rounds test body config.maxLoopIterations,w⟩
  | block {n : Nat} {body : List Stmt} {span : Span} {w v : World} {scope : FrameId}
      (made : (newScope w.scope w).Ends (.ok scope) v) :
      Begins config ⟨n,.inside (.block body span),w⟩
        ⟨n,.stmts 0 body,{ v with scope := scope, monitor := v.monitor.enterBlock body.length }⟩
  | statement {n index : Nat} {s : Stmt} {ss : List Stmt} {w : World} :
      Begins config ⟨n,.stmts index (s :: ss),w⟩
        ⟨n,.stmt s,{ w with monitor := w.monitor.atStatement index s.span }⟩
  | next {n index : Nat} {s : Stmt} {ss : List Stmt} {w v : World}
      (ended : (s.exec config (invokeInside config n)
        { w with monitor := w.monitor.atStatement index s.span }).Ends (.ok .next) v) :
      Begins config ⟨n,.stmts index (s :: ss),w⟩ ⟨n,.stmts (index + 1) ss,v⟩
  | condition {n left : Nat} {test : Expr} {body : Stmt} {w : World} :
      Begins config ⟨n,.rounds test body left,w⟩ ⟨n,.expr test,w⟩
  | round {n left : Nat} {test : Expr} {body : Stmt} {w v : World} {a : Value}
      (ended : (test.eval (invokeInside config n) w).Ends (.ok a) v) (holds : a.truthy) :
      Begins config ⟨n,.rounds test body (left + 1),w⟩ ⟨n,.stmt body,v⟩
  | turn {n left : Nat} {test : Expr} {body : Stmt} {w v u : World} {a : Value}
      (ended : (test.eval (invokeInside config n) w).Ends (.ok a) v) (holds : a.truthy)
      (executed : (body.exec config (invokeInside config n) v).Ends (.ok .next) u) :
      Begins config ⟨n,.rounds test body (left + 1),w⟩ ⟨n,.between test body left,u⟩
  | again {n left : Nat} {test : Expr} {body : Stmt} {w v : World}
      (passed : (checkpoint w).Ends (.ok ()) v) :
      Begins config ⟨n,.between test body left,w⟩ ⟨n,.rounds test body left,v⟩
  /-- The body of a function begins inside one call more. -/
  | body {n : Nat} {c : Closure} {args : List Value} {w v u : World} {scope : FrameId}
      (room : ¬ config.maxCallDepth ≤ w.callDepth) (made : (newScope c.scope w).Ends (.ok scope) v)
      (bound : (bindAll scope (c.params.zip args) v).Ends (.ok ()) u) :
      Begins config ⟨n,.call c args,w⟩
        ⟨n + 1,.stmts 0 c.body,
          { u with
            scope := scope
            callDepth := u.callDepth + 1
            monitor := u.monitor.enterBlock c.body.length }⟩

/-- The moments of an execution, from its own beginning on. -/
abbrev Reaches (config : Config) : Moment → Moment → Prop := Relation.ReflTransGen (Begins config)

/-- The counter of calls says inside how many calls the moment is, and these are no more than may be
nested. -/
def Moment.Counted (config : Config) (m : Moment) : Prop :=
  m.world.callDepth = m.calls ∧ m.calls ≤ config.maxCallDepth

theorem Moment.Counted.of_samePlace {config : Config} {n : Nat} {task other : Task} {w v : World}
    (counted : Counted config ⟨n,task,w⟩) (same : SamePlace w v) : Counted config ⟨n,other,v⟩ :=
  ⟨same.callDepth.trans counted.1,counted.2⟩

/-- Where a moment is counted right, so are those that begin while its task is executed. -/
theorem Begins.counted {config : Config} {m m' : Moment} (begins : Begins config m m')
    (counted : m.Counted config) : m'.Counted config := by
  have evaluated : ∀ {n : Nat} {e : Expr} {w v : World} {result : Except Interruption Value},
      (e.eval (invokeInside config n) w).Ends result v → SamePlace w v :=
    fun ended => (eval_steady config _ _).ends ended
  have executed : ∀ {n : Nat} {s : Stmt} {w v : World} {result : Except Interruption Flow},
      (s.exec config (invokeInside config n) w).Ends result v → SamePlace w v :=
    fun ended => (exec_steady config _ _).ends ended
  cases begins with
  | right ended => exact counted.of_samePlace (evaluated ended)
  | decided ended _ => exact counted.of_samePlace (evaluated ended)
  | arguments ended => exact counted.of_samePlace (evaluated ended)
  | call ended values _ =>
    have same := (evalAll_steady config _ _).ends values
    exact counted.of_samePlace ((evaluated ended).trans same)
  | position ended => exact counted.of_samePlace (evaluated ended)
  | others ended => exact counted.of_samePlace (evaluated ended)
  | enter passed => exact counted.of_samePlace (steady_checkpoint.ends passed)
  | yes ended _ => exact counted.of_samePlace (evaluated ended)
  | no ended _ => exact counted.of_samePlace (evaluated ended)
  | block made =>
    have same := (steady_compositional.newScope _).ends made
    exact ⟨same.callDepth.trans counted.1,counted.2⟩
  | next ended => exact ⟨(executed ended).callDepth.trans counted.1,counted.2⟩
  | round ended _ => exact counted.of_samePlace (evaluated ended)
  | turn ended _ body => exact counted.of_samePlace ((evaluated ended).trans (executed body))
  | again passed => exact counted.of_samePlace (steady_checkpoint.ends passed)
  | body room made bound =>
    have same := ((steady_compositional.newScope _).ends made).trans ((steady_compositional.bindAll _ _).ends bound)
    have depth := same.callDepth
    obtain ⟨count,_⟩ := counted
    simp only at count depth
    exact ⟨by simp only [depth,count],by simp only; omega⟩
  | _ => exact counted

theorem Reaches.counted {config : Config} {m m' : Moment} (reaches : Reaches config m m')
    (counted : m.Counted config) : m'.Counted config := by
  induction reaches with
  | refl => exact counted
  | tail _ begins ih => exact begins.counted ih

/-! ### Waits are at checkpoints -/

namespace Script

variable {α β : Type}

def Prompt (m : Script α) : Prop := ∀ w u, ¬ (m w).Waits u

theorem prompt_pure (a : α) : Prompt (pure a : Script α) := fun _ _ => Run.not_waits_done

theorem prompt_look (f : World → α) : Prompt (look f) := fun _ _ => Run.not_waits_done

theorem prompt_ofAction (action : Action α) : Prompt (ofAction action) := by
  intro w u waits
  unfold ofAction at waits
  split at waits <;> exact Run.not_waits_done waits

theorem prompt_locate (span : Span) {m : Script α} (prompt : Prompt m) : Prompt (locate span m) :=
  fun w u waits => prompt w u ((Run.waits_locate span (m w) u).mp waits)

theorem prompt_bind {m : Script α} {f : α → Script β} (first : Prompt m) (second : ∀ a, Prompt (f a)) :
    Prompt (m >>= f) := by
  intro w u waits
  rcases (Run.waits_andThen (m w) f u).mp waits with firstWaits | ⟨a,v,_,secondWaits⟩
  · exact first w u firstWaits
  · exact second a v u secondWaits

theorem prompt_inScope (f : FrameId → Action α) : Prompt (inScope f) :=
  prompt_bind (prompt_look _) fun _ => prompt_ofAction _

theorem prompt_bindAll (scope : FrameId) : ∀ bindings : List (Name × Value), Prompt (bindAll scope bindings)
  | [] => prompt_pure _
  | (_,_) :: rest =>
    prompt_bind (prompt_locate _ (prompt_ofAction _)) fun _ => prompt_bindAll scope rest

/-- With nothing behind it that waits, a computation in front does all the waiting. -/
theorem Prompt.waits_first {m : Script α} {f : α → Script β} (second : ∀ a, Prompt (f a)) {w u : World}
    (waits : ((m >>= f) w).Waits u) : (m w).Waits u := by
  rcases (Run.waits_andThen (m w) f u).mp waits with firstWaits | ⟨a,v,_,secondWaits⟩
  · exact firstWaits
  · exact absurd secondWaits (second a v u)

end Script

def Task.AtCheckpoint : Task → Prop
  | .stmt _ | .between _ _ _ => True
  | _ => False

/-- The execution of a moment's task waits in a world at the checkpoint of one of its moments. -/
def Parked (config : Config) (m : Moment) (u : World) : Prop :=
  ∃ m', Reaches config m m' ∧ m'.task.AtCheckpoint ∧ (checkpoint m'.world).Waits u

theorem Parked.of_begins {config : Config} {m m' : Moment} {u : World} (parked : Parked config m' u)
    (begins : Begins config m m') : Parked config m u := by
  obtain ⟨last,reaches,task,waits⟩ := parked
  exact ⟨last,.head begins reaches,task,waits⟩

/-- Inside a number of calls, calls wait at checkpoints. -/
def CallsPark (config : Config) (n : Nat) : Prop :=
  ∀ {c : Closure} {args : List Value} {w u : World}, (invokeInside config n c args w).Waits u →
    Parked config ⟨n,.call c args,w⟩ u

section
variable {config : Config} {n : Nat}

mutual

theorem eval_parked (calls : CallsPark config n) : (e : Expr) → ∀ {w u : World},
    (e.eval (invokeInside config n) w).Waits u → Parked config ⟨n,.expr e,w⟩ u
  | .literal value span, w, u, waits => by
    rw [Expr.eval] at waits
    exact absurd waits (prompt_locate span (prompt_pure _) w u)
  | .grouping inner span, w, u, waits => by
    rw [Expr.eval] at waits
    exact (eval_parked calls inner ((Run.waits_locate span _ u).mp waits)).of_begins .grouping
  | .var name span, w, u, waits => by
    rw [Expr.eval] at waits
    exact absurd waits (prompt_locate span (prompt_inScope _) w u)
  | .assign name value span, w, u, waits => by
    rw [Expr.eval] at waits
    have inner := Prompt.waits_first (fun _ => prompt_bind (prompt_inScope _) fun _ => prompt_pure _)
      ((Run.waits_locate span _ u).mp waits)
    exact (eval_parked calls value inner).of_begins .assigned
  | .unary op operand span, w, u, waits => by
    rw [Expr.eval] at waits
    have inner := Prompt.waits_first (fun _ => prompt_ofAction _) ((Run.waits_locate span _ u).mp waits)
    exact (eval_parked calls operand inner).of_begins .operand
  | .binary op left right span, w, u, waits => by
    rw [Expr.eval] at waits
    rcases (Run.waits_andThen _ _ u).mp ((Run.waits_locate span _ u).mp waits) with
      first | ⟨a,v,ended,second⟩
    · exact (eval_parked calls left first).of_begins .left
    · have inner := Prompt.waits_first (fun _ => prompt_ofAction _) second
      exact (eval_parked calls right inner).of_begins (.right ended)
  | .logical op left right span, w, u, waits => by
    rw [Expr.eval] at waits
    rcases (Run.waits_andThen _ _ u).mp ((Run.waits_locate span _ u).mp waits) with
      first | ⟨a,v,ended,second⟩
    · exact (eval_parked calls left first).of_begins .decider
    · by_cases settled : op.settledBy a
      · simp only [settled] at second
        exact absurd second Run.not_waits_done
      · simp only [settled] at second
        exact (eval_parked calls right second).of_begins (.decided ended settled)
  | .call callee args span, w, u, waits => by
    rw [Expr.eval] at waits
    rcases (Run.waits_andThen _ _ u).mp ((Run.waits_locate span _ u).mp waits) with
      first | ⟨value,v,ended,second⟩
    · exact (eval_parked calls callee first).of_begins .callee
    · cases value with
      | function f =>
        rcases (Run.waits_andThen _ _ u).mp second with evaluating | ⟨values,x,evaluated,calling⟩
        · exact (evalAll_parked calls args evaluating).of_begins (.arguments ended)
        · unfold Function.call at calling
          split at calling
          · exact absurd calling Run.not_waits_done
          · rename_i fits
            cases f with
            | builtin b => exact absurd calling (prompt_ofAction _ x u)
            | declared c => exact (calls calling).of_begins (.call ended evaluated (Decidable.not_not.mp fits))
      | _ => exact absurd second Run.not_waits_done
  | .array items span, w, u, waits => by
    rw [Expr.eval] at waits
    have inner := Prompt.waits_first (fun _ => prompt_ofAction _) ((Run.waits_locate span _ u).mp waits)
    exact (evalAll_parked calls items inner).of_begins .items
  | .index target position span, w, u, waits => by
    rw [Expr.eval] at waits
    rcases (Run.waits_andThen _ _ u).mp ((Run.waits_locate span _ u).mp waits) with
      first | ⟨a,v,ended,second⟩
    · exact (eval_parked calls target first).of_begins .target
    · have inner := Prompt.waits_first (fun _ => prompt_ofAction _) second
      exact (eval_parked calls position inner).of_begins (.position ended)

theorem evalAll_parked (calls : CallsPark config n) : (es : List Expr) → ∀ {w u : World},
    (Expr.evalAll (invokeInside config n) es w).Waits u → Parked config ⟨n,.exprs es,w⟩ u
  | [], w, u, waits => by
    rw [Expr.evalAll] at waits
    exact absurd waits Run.not_waits_done
  | e :: es, w, u, waits => by
    rw [Expr.evalAll] at waits
    rcases (Run.waits_andThen _ _ u).mp waits with first | ⟨a,v,ended,second⟩
    · exact (eval_parked calls e first).of_begins .first
    · have inner := Prompt.waits_first (fun _ => prompt_pure _) second
      exact (evalAll_parked calls es inner).of_begins (.others ended)

end

theorem parked_checkpoint {s : Stmt} {m : Script Flow} {w u : World}
    (waits : ((checkpoint >>= fun _ => m) w).Waits u)
    (behind : ∀ {v}, (m v).Waits u → Parked config ⟨n,.inside s,v⟩ u) : Parked config ⟨n,.stmt s,w⟩ u := by
  rcases (Run.waits_andThen _ _ u).mp waits with atOnce | ⟨_,v,passed,later⟩
  · exact ⟨_,.refl,trivial,atOnce⟩
  · exact (behind later).of_begins (.enter passed)

theorem repeatWhile_parked (calls : CallsPark config n) (limit : Nat) {test : Expr} {body : Stmt}
    (bodyParked : ∀ {w u : World}, (body.exec config (invokeInside config n) w).Waits u →
      Parked config ⟨n,.stmt body,w⟩ u) :
    ∀ (left : Nat) {w u : World},
      (repeatWhile limit (do return (← test.eval (invokeInside config n)).truthy)
        (body.exec config (invokeInside config n)) left w).Waits u →
      Parked config ⟨n,.rounds test body left,w⟩ u := by
  -- Asking for the truth of the test's value adds no wait to the test, and no end either.
  have asked : ∀ {w v : World} {b : Bool},
      ((do return (← test.eval (invokeInside config n)).truthy : Script Bool) w).Ends (.ok b) v →
      ∃ a, (test.eval (invokeInside config n) w).Ends (.ok a) v ∧ a.truthy = b := by
    intro w v b ended
    rcases (Run.ends_andThen _ _ _ v).mp ended with ⟨a,x,first,second⟩ | ⟨_,other,_⟩
    · obtain ⟨same,rfl⟩ := Run.ends_done.mp second
      cases same
      exact ⟨a,first,rfl⟩
    · cases other
  intro left
  induction left with
  | zero =>
    intro w u waits
    rcases (Run.waits_andThen _ _ u).mp waits with testing | ⟨b,v,_,second⟩
    · exact (eval_parked calls test (Prompt.waits_first (fun _ => prompt_pure _) testing)).of_begins .condition
    · cases b <;> exact absurd second Run.not_waits_done
  | succ left ih =>
    intro w u waits
    rcases (Run.waits_andThen _ _ u).mp waits with testing | ⟨b,v,tested,second⟩
    · exact (eval_parked calls test (Prompt.waits_first (fun _ => prompt_pure _) testing)).of_begins .condition
    · obtain ⟨a,ended,holds⟩ := asked tested
      cases b with
      | false => exact absurd second Run.not_waits_done
      | true =>
        rcases (Run.waits_andThen _ _ u).mp second with executing | ⟨flow,x,executed,third⟩
        · exact (bodyParked executing).of_begins (.round ended holds)
        · cases flow with
          | returned value => exact absurd third Run.not_waits_done
          | next =>
            refine Parked.of_begins ?_ (.turn ended holds executed)
            rcases (Run.waits_andThen _ _ u).mp third with atOnce | ⟨_,y,passed,later⟩
            · exact ⟨_,.refl,trivial,atOnce⟩
            · exact (ih later).of_begins (.again passed)

mutual

/-- The waits of a statement are at checkpoints: its own, or that of a moment of its execution. -/
theorem exec_parked (calls : CallsPark config n) : (s : Stmt) → ∀ {w u : World},
    (s.exec config (invokeInside config n) w).Waits u → Parked config ⟨n,.stmt s,w⟩ u
  | .expression value span, w, u, waits => by
    rw [Stmt.exec] at waits
    refine parked_checkpoint waits fun {v} inner => ?_
    have first := Prompt.waits_first (fun _ => prompt_pure _) ((Run.waits_locate span _ u).mp inner)
    exact (eval_parked calls value first).of_begins .effect
  | .var name initial span, w, u, waits => by
    rw [Stmt.exec] at waits
    refine parked_checkpoint waits fun {v} inner => ?_
    have first := Prompt.waits_first
      (fun _ => prompt_bind (prompt_locate _ (prompt_inScope _)) fun _ => prompt_pure _)
      ((Run.waits_locate span _ u).mp inner)
    cases initial with
    | none => exact absurd first Run.not_waits_done
    | some value => exact (eval_parked calls value first).of_begins .initial
  | .function name params body span, w, u, waits => by
    rw [Stmt.exec] at waits
    refine parked_checkpoint waits fun {v} inner => ?_
    refine absurd inner (prompt_locate span ?_ v u)
    refine prompt_bind (prompt_look _) fun _ => prompt_bind (prompt_ofAction _) fun _ => ?_
    exact prompt_bind (prompt_locate _ (prompt_inScope _)) fun _ => prompt_pure _
  | .block body span, w, u, waits => by
    rw [Stmt.exec] at waits
    refine parked_checkpoint waits fun {v} inner => ?_
    rcases (Run.waits_andThen _ _ u).mp ((Run.waits_locate span _ u).mp inner) with
      looking | ⟨parent,x,looked,rest⟩
    · exact absurd looking Run.not_waits_done
    · obtain ⟨same,rfl⟩ := Run.ends_done.mp looked
      cases same
      rcases (Run.waits_andThen _ _ u).mp rest with making | ⟨scope,y,made,executing⟩
      · exact absurd making (prompt_ofAction _ _ u)
      · exact (execAll_parked calls 0 body ((Run.waits_atEnd _ _ u).mp executing)).of_begins (.block made)
  | .branch test yes no span, w, u, waits => by
    rw [Stmt.exec] at waits
    refine parked_checkpoint waits fun {v} inner => ?_
    rcases (Run.waits_andThen _ _ u).mp ((Run.waits_locate span _ u).mp inner) with
      testing | ⟨a,x,ended,second⟩
    · exact (eval_parked calls test testing).of_begins .test
    · by_cases holds : a.truthy
      · simp only [holds] at second
        exact (exec_parked calls yes second).of_begins (.yes ended holds)
      · simp only [holds] at second
        cases no with
        | none =>
          rw [Stmt.execOption] at second
          exact absurd second Run.not_waits_done
        | some no =>
          rw [Stmt.execOption] at second
          exact (exec_parked calls no second).of_begins (.no ended holds)
  | .loop test body span, w, u, waits => by
    rw [Stmt.exec] at waits
    refine parked_checkpoint waits fun {v} inner => ?_
    exact (repeatWhile_parked calls _ (exec_parked calls body) _
      ((Run.waits_locate span _ u).mp inner)).of_begins .loop
  | .giveBack value span, w, u, waits => by
    rw [Stmt.exec] at waits
    refine parked_checkpoint waits fun {v} inner => ?_
    have first := Prompt.waits_first (fun _ => prompt_pure _) ((Run.waits_locate span _ u).mp inner)
    cases value with
    | none => exact absurd first Run.not_waits_done
    | some value => exact (eval_parked calls value first).of_begins .result

theorem execAll_parked (calls : CallsPark config n) (index : Nat) : (ss : List Stmt) → ∀ {w u : World},
    (Stmt.execAll config (invokeInside config n) index ss w).Waits u → Parked config ⟨n,.stmts index ss,w⟩ u
  | [], w, u, waits => by
    rw [Stmt.execAll] at waits
    exact absurd waits Run.not_waits_done
  | s :: ss, w, u, waits => by
    rw [Stmt.execAll] at waits
    rcases (Run.waits_andThen (s.exec config (invokeInside config n)
      { w with monitor := w.monitor.atStatement index s.span }) _ u).mp waits with
      executing | ⟨flow,v,ended,rest⟩
    · exact (exec_parked calls s executing).of_begins .statement
    · cases flow with
      | returned value => exact absurd rest Run.not_waits_done
      | next => exact (execAll_parked calls (index + 1) ss rest).of_begins (.next ended)

end

end

theorem calls_park (config : Config) (n : Nat) : CallsPark config n := by
  -- Each call uses up one of the calls that may still be nested.
  induction remaining : config.maxCallDepth - n generalizing n with
  | zero =>
    intro c args w u waits
    rw [invokeInside,remaining,invokeWithin] at waits
    exact absurd waits Run.not_waits_done
  | succ budget ih =>
    intro c args w u waits
    have fewer : config.maxCallDepth - (n + 1) = budget := by omega
    rw [invokeInside,remaining,invokeWithin] at waits
    rcases (Run.waits_andThen _ _ u).mp waits with looking | ⟨depth,v,looked,rest⟩
    · exact absurd looking Run.not_waits_done
    · obtain ⟨same,rfl⟩ := Run.ends_done.mp looked
      cases same
      by_cases full : config.maxCallDepth ≤ v.callDepth
      · simp only [full] at rest
        exact absurd rest Run.not_waits_done
      · simp only [full] at rest
        rcases (Run.waits_andThen _ _ u).mp rest with making | ⟨scope,x,made,binding⟩
        · exact absurd making (prompt_ofAction _ _ u)
        rcases (Run.waits_andThen _ _ u).mp binding with stuck | ⟨_,y,bound,executing⟩
        · exact absurd stuck (prompt_bindAll _ _ _ u)
        have called := Prompt.waits_first (fun flow => by
          cases flow with
          | returned value => exact prompt_pure _
          | next => exact prompt_pure _) executing
        have inner := (Run.waits_atEnd _ _ u).mp ((Run.waits_atEnd _ _ u).mp called)
        rw [← fewer] at inner
        exact (execAll_parked (ih (n + 1) fewer) 0 c.body inner).of_begins (.body full made bound)

theorem checkpoint_waits {w u : World} (waits : (checkpoint w).Waits u) : SamePlace w u := by
  rcases (Run.waits_andThen _ _ u).mp waits with asking | ⟨_,v,asked,rest⟩
  · rw [checkKilled_eq] at asking
    exact absurd asking Run.not_waits_done
  have same := (steady_checkKilled.ends asked)
  rcases (Run.waits_andThen _ _ u).mp rest with telling | ⟨_,x,told,waiting⟩
  · exact absurd telling Run.not_waits_done
  obtain ⟨_,rfl⟩ := Run.ends_done.mp told
  unfold awaitTurtle at waiting
  split at waiting
  · rcases Run.waits_waiting.mp waiting with rfl | ⟨y,handed,later⟩
    · exact ⟨same.scope,same.callDepth,same.blocks⟩
    · rw [checkKilled_eq] at later
      exact absurd later Run.not_waits_done
  · exact absurd waiting Run.not_waits_done

/-- The moment at which a program begins: inside no call, in the global scope. -/
def Program.beginning (program : Program) (w : World) : Moment :=
  ⟨0,.stmts 0 program.statements,
    { w with
      scope := Store.global
      callDepth := 0
      monitor := w.monitor.enterBlock program.statements.length }⟩

theorem script_parked (config : Config) (program : Program) {w u : World}
    (waits : (program.script config w).Waits u) : Parked config (program.beginning w) u := by
  have inner := (Run.waits_atEnd _ _ u).mp ((Run.waits_atEnd _ _ u).mp waits)
  exact execAll_parked (calls_park config 0) 0 program.statements inner

/-- Statements, expressions and calls end where they were started from, whatever the end is and
however often they waited. While a program runs, the counter of calls is the number of calls that are
being executed, which is never more than the configured one, at every moment and at every wait. -/
theorem place_restored (config : Config) :
    (∀ (budget : Nat) (w v : World),
      (∀ (s : Stmt) (result : Except Interruption Flow),
        (s.exec config (invokeWithin config budget) w).Ends result v → SamePlace w v) ∧
      (∀ (e : Expr) (result : Except Interruption Value),
        (e.eval (invokeWithin config budget) w).Ends result v → SamePlace w v) ∧
      (∀ (f : Function) (args : List Value) (result : Except Interruption Value),
        (f.call (invokeWithin config budget) args w).Ends result v → SamePlace w v)) ∧
    (∀ (program : Program) (w : World),
      (∀ m, Reaches config (program.beginning w) m →
        m.world.callDepth = m.calls ∧ m.calls ≤ config.maxCallDepth) ∧
      (∀ u, (program.script config w).Waits u →
        ∃ m, Reaches config (program.beginning w) m ∧ SamePlace m.world u ∧ u.callDepth = m.calls)) := by
  refine ⟨fun budget w v => ⟨?_,?_,?_⟩,fun program w => ?_⟩
  · intro s result ends
    exact (exec_steady config budget s).ends ends
  · intro e result ends
    exact (eval_steady config budget e).ends ends
  · intro f args result ends
    exact (call_steady config budget f args).ends ends
  · have counted : ∀ m, Reaches config (program.beginning w) m → m.Counted config := by
      intro m reaches
      exact reaches.counted ⟨rfl,Nat.zero_le _⟩
    refine ⟨counted,fun u waits => ?_⟩
    obtain ⟨m,reaches,_,waiting⟩ := script_parked config program waits
    have same := checkpoint_waits waiting
    exact ⟨m,reaches,same,same.callDepth.trans (counted m reaches).1⟩

/-- A block that fails at a name that is not declared. -/
def failingBlock : Stmt := .block [.expression (.var "missing" default) default] default

theorem place_restored_failingBlock :
    let w : World := { sprite := .ofConfig {} }
    ∃ failure v, (failingBlock.exec {} (invokeWithin {} 1) w).Ends (.error (.failed failure)) v ∧ SamePlace w v := by
  intro w
  obtain ⟨failure,v,ends⟩ : ∃ failure v,
      (failingBlock.exec {} (invokeWithin {} 1) w).Ends (.error (.failed failure)) v := ⟨_,_,.done _ _⟩
  exact ⟨failure,v,ends,((place_restored {}).1 1 w v).1 _ _ ends⟩

end TurtleScript
