import TurtleScript.Evaluate
import TurtleScript.Proofs.Frameless

/-!
Properties of computations that carry over to whole programs. A property that the few ways of putting
computations together respect holds of every expression (`Evaluating.eval`), and with what it asks of
scopes, of every statement and of every call of a function (`Executing.exec`,
`Executing.invokeWithin`), whatever the program is. What is executed in a scope is told apart there by
whether it may declare names in it. Where scopes make no difference, less is to be shown
(`Compositional`).
-/

namespace TurtleScript

namespace Script

theorem ofAction_eq {α : Type} {action : Action α} (contained : action.Contained) (w : World) :
    ofAction action w = .done ((action.onScene w.scene).1.mapError fun fault => .failed { fault := fault })
      (w.withScene (action.onScene w.scene).2) := by
  unfold ofAction
  rw [contained.run_eq]
  cases (action.onScene w.scene).1 with
  | ok a => rfl
  | error fault => rfl

end Script

open Script

/-- A property of computations that going on behind one another respects. -/
structure Script.Sequential (P : {α : Type} → Script α → Prop) : Prop where
  pure : ∀ {α : Type} (a : α), P (pure a : Script α)
  fail : ∀ {α : Type} (fault : Fault), P (fail fault : Script α)
  bind : ∀ {α β : Type} {m : Script α} {f : α → Script β}, P m → (∀ a, P (f a)) → P (m >>= f)
  locate : ∀ {α : Type} (span : Span) {m : Script α}, P m → P (locate span m)

theorem Script.Sequential.ite {P : {α : Type} → Script α → Prop} (_ : Sequential P) {α : Type} {c : Prop}
    [Decidable c] {m n : Script α} (yes : P m) (no : P n) : P (if c then m else n) := by
  split
  · exact yes
  · exact no

/-- Such a property, if the steps of expressions have it: those that do not look at scopes, and reading
and assigning a name in the current scope. -/
structure Evaluating (P : {α : Type} → Script α → Prop) : Prop extends Script.Sequential P where
  frameless : ∀ {α : Type} {action : Action α}, action.Frameless → P (ofAction action)
  get : ∀ name : String, P (inScope fun scope => Action.inquire (·.get scope name))
  assign : ∀ (name : String) (value : Value), P (inScope (Action.assign · name value))

namespace Evaluating

variable {P : {α : Type} → Script α → Prop} {invoke : Invoke}

theorem call (kept : Evaluating P) (calls : ∀ closure args, P (invoke closure args))
    (function : Function) (args : List Value) : P (function.call invoke args) := by
  unfold Function.call
  refine kept.ite (kept.fail _) ?_
  cases function with
  | builtin b => exact kept.frameless (b.frameless_apply args)
  | declared c => exact calls c args

mutual

theorem eval (kept : Evaluating P) (calls : ∀ closure args, P (invoke closure args)) :
    (e : Expr) → P (e.eval invoke)
  | .literal value span => by
    rw [Expr.eval]
    exact kept.locate span (kept.pure _)
  | .grouping inner span => by
    rw [Expr.eval]
    exact kept.locate span (kept.eval calls inner)
  | .var name span => by
    rw [Expr.eval]
    exact kept.locate span (kept.get name)
  | .assign name value span => by
    rw [Expr.eval]
    refine kept.locate span (kept.bind (kept.eval calls value) fun a => ?_)
    exact kept.bind (kept.assign name a) fun _ => kept.pure _
  | .unary op operand span => by
    rw [Expr.eval]
    refine kept.locate span (kept.bind (kept.eval calls operand) fun _ => ?_)
    exact kept.frameless (Action.frameless_inquire fun _ _ => rfl)
  | .binary op left right span => by
    rw [Expr.eval]
    refine kept.locate span (kept.bind (kept.eval calls left) fun _ => ?_)
    refine kept.bind (kept.eval calls right) fun _ => ?_
    exact kept.frameless (Action.frameless_inquire fun _ _ => rfl)
  | .logical op left right span => by
    rw [Expr.eval]
    refine kept.locate span (kept.bind (kept.eval calls left) fun _ => ?_)
    exact kept.ite (kept.pure _) (kept.eval calls right)
  | .call callee args span => by
    rw [Expr.eval]
    refine kept.locate span (kept.bind (kept.eval calls callee) fun value => ?_)
    cases value with
    | function function =>
      exact kept.bind (kept.evalAll calls args) fun values => kept.call calls function values
    | _ => exact kept.fail _
  | .array items span => by
    rw [Expr.eval]
    refine kept.locate span (kept.bind (kept.evalAll calls items) fun _ => ?_)
    exact kept.frameless (Action.frameless_renew fun _ _ => rfl)
  | .index target position span => by
    rw [Expr.eval]
    refine kept.locate span (kept.bind (kept.eval calls target) fun _ => ?_)
    refine kept.bind (kept.eval calls position) fun _ => ?_
    exact kept.frameless (Action.frameless_inquire fun _ _ => rfl)

theorem evalAll (kept : Evaluating P) (calls : ∀ closure args, P (invoke closure args)) :
    (es : List Expr) → P (Expr.evalAll invoke es)
  | [] => by
    rw [Expr.evalAll]
    exact kept.pure _
  | e :: es => by
    rw [Expr.evalAll]
    refine kept.bind (kept.eval calls e) fun _ => ?_
    exact kept.bind (kept.evalAll calls es) fun _ => kept.pure _

end

theorem evalOption (kept : Evaluating P) (calls : ∀ closure args, P (invoke closure args))
    (e : Option Expr) : P (Expr.evalOption invoke e) := by
  cases e with
  | some e => exact kept.eval calls e
  | none => exact kept.pure _

end Evaluating

/-! ### Statements -/

mutual

/-- A statement that binds nothing in its own scope: neither it nor a statement that it may be declares a name. What is
in a block is in the scope of the block. -/
def Stmt.Bindless : Stmt → Prop
  | .var _ _ _ | .function _ _ _ _ => False
  | .branch _ yes no _ => yes.Bindless ∧ Stmt.BindlessOption no
  | .loop _ body _ => body.Bindless
  | _ => True

def Stmt.BindlessOption : Option Stmt → Prop
  | some s => s.Bindless
  | none => True

end

/-- Properties of what is executed in a scope, where it may declare names there or not (`R`), of what
is done for the sake of a scope that is new (`S`), and of what executes the statements of a list of
some length (`Q`). -/
structure Executing (R : Prop → {α : Type} → Script α → Prop) (S : FrameId → {α : Type} → Script α → Prop)
    (Q : {α : Type} → Nat → Script α → Prop) : Prop where
  evaluating : ∀ declares, Evaluating (R declares)
  sequential : ∀ id, Script.Sequential (S id)
  checkpoint : ∀ declares, R declares checkpoint
  callDepth : ∀ declares, R declares (look World.callDepth)
  /-- A function is closed over the scope that it is declared in. -/
  scope : ∀ {declares}, declares → R declares (look World.scope)
  declare : ∀ {declares}, declares → ∀ (name : String) (value : Value),
    R declares (inScope (Action.define · name value))
  define : ∀ (id : FrameId) (name : String) (value : Value), S id (ofAction (Action.define id name value))
  inCall : ∀ {α : Type} {id : FrameId} {m : Script α}, S id m → S id (inCall m)
  inBlock : ∀ {α : Type} (id : FrameId) {length : Nat} {m : Script α}, Q length m → S id (inBlock id length m)
  newScope : ∀ {α : Type} (declares) (parent : FrameId) {f : FrameId → Script α},
    (∀ id, S id (f id)) → R declares (newScope parent >>= f)
  newBlock : ∀ {α : Type} (declares) {f : FrameId → Script α},
    (∀ id, S id (f id)) → R declares do f (← Script.newScope (← look World.scope))
  nil : ∀ {α : Type} (a : α) (length : Nat), Q length (Pure.pure a : Script α)
  /-- One more statement in front of those behind it. -/
  cons : ∀ {α β : Type} {length index : Nat} (_ : index < length) (span : Span) {m : Script α}
    {rest : α → Script β}, R True m → (∀ a, Q length (rest a)) →
      Q length do
        change fun w => { w with monitor := w.monitor.atStatement index span }
        rest (← m)

namespace Executing

variable {R : Prop → {α : Type} → Script α → Prop} {S : FrameId → {α : Type} → Script α → Prop}
  {Q : {α : Type} → Nat → Script α → Prop} {declares : Prop} {invoke : Invoke}

theorem enter (kept : Executing R S Q) (span : Span) {α : Type} {m : Script α} (inner : R declares m) :
    R declares (do Script.checkpoint; locate span m) :=
  (kept.evaluating _).bind (kept.checkpoint _) fun _ => (kept.evaluating _).locate span inner

theorem declaration (kept : Executing R S Q) (may : declares) (name : Name) (value : Value) :
    R declares (do locate name.span (inScope (Action.define · name.text value)); return Flow.next) := by
  have own := kept.evaluating declares
  exact own.bind (own.locate name.span (kept.declare may name.text value)) fun _ => own.pure _

theorem repeatWhile (kept : Executing R S Q) (limit : Nat) {test : Script Bool} {body : Script Flow}
    (tests : R declares test) (bodies : R declares body) :
    ∀ rounds, R declares (repeatWhile limit test body rounds)
  | 0 => by
    have own := kept.evaluating declares
    exact own.bind tests fun _ => own.ite (own.fail _) (own.pure _)
  | rounds + 1 => by
    have own := kept.evaluating declares
    refine own.bind tests fun _ => own.ite (own.bind bodies fun flow => ?_) (own.pure _)
    cases flow with
    | returned value => exact own.pure _
    | next => exact own.bind (kept.checkpoint _) fun _ => kept.repeatWhile limit tests bodies rounds

theorem bindAll (kept : Executing R S Q) (id : FrameId) :
    ∀ bindings : List (Name × Value), S id (bindAll id bindings)
  | [] => (kept.sequential id).pure _
  | (name,value) :: rest => by
    have own := kept.sequential id
    exact own.bind (own.locate name.span (kept.define id name.text value)) fun _ => kept.bindAll id rest

mutual

/-- What holds in a scope holds of every statement that declares names there only if it may, if it does
of calls. -/
theorem exec (kept : Executing R S Q) (config : Config)
    (calls : ∀ declares closure args, R declares (invoke closure args)) :
    (s : Stmt) → ∀ {declares : Prop}, declares ∨ s.Bindless → R declares (s.exec config invoke)
  | .expression value span,declares,_ => by
    have own := kept.evaluating declares
    rw [Stmt.exec]
    exact kept.enter span (own.bind (own.eval (calls declares) value) fun _ => own.pure _)
  | .var name initial span,declares,allowed => by
    have own := kept.evaluating declares
    rw [Stmt.exec]
    refine kept.enter span (own.bind (own.evalOption (calls declares) initial) fun a => ?_)
    exact kept.declaration (allowed.resolve_right id) name a
  | .function name params body span,declares,allowed => by
    have own := kept.evaluating declares
    have may := allowed.resolve_right id
    rw [Stmt.exec]
    refine kept.enter span (own.bind (kept.scope may) fun scope => ?_)
    refine own.bind (own.frameless (Action.frameless_renew fun _ _ => rfl)) fun a => ?_
    exact kept.declaration may name a
  | .block body span,declares,_ => by
    rw [Stmt.exec]
    refine kept.enter span (kept.newBlock declares fun scope => kept.inBlock scope ?_)
    have listed := kept.execAll config calls 0 body
    rwa [Nat.zero_add] at listed
  | .branch test yes no span,declares,allowed => by
    have own := kept.evaluating declares
    rw [Stmt.exec]
    refine kept.enter span (own.bind (own.eval (calls declares) test) fun _ => own.ite ?_ ?_)
    · exact kept.exec config calls yes (allowed.imp_right fun bindless => bindless.1)
    · exact kept.execOption config calls no (allowed.imp_right fun bindless => bindless.2)
  | .loop test body span,declares,allowed => by
    have own := kept.evaluating declares
    rw [Stmt.exec]
    refine kept.enter span (kept.repeatWhile _ ?_ (kept.exec config calls body allowed) _)
    exact own.bind (own.eval (calls declares) test) fun _ => own.pure _
  | .giveBack value span,declares,_ => by
    have own := kept.evaluating declares
    rw [Stmt.exec]
    exact kept.enter span (own.bind (own.evalOption (calls declares) value) fun _ => own.pure _)

theorem execOption (kept : Executing R S Q) (config : Config)
    (calls : ∀ declares closure args, R declares (invoke closure args)) :
    (s : Option Stmt) → ∀ {declares : Prop}, declares ∨ Stmt.BindlessOption s →
      R declares (Stmt.execOption config invoke s)
  | some s,_,allowed => by
    rw [Stmt.execOption]
    exact kept.exec config calls s allowed
  | none,declares,_ => by
    rw [Stmt.execOption]
    exact (kept.evaluating declares).pure _

theorem execAll (kept : Executing R S Q) (config : Config)
    (calls : ∀ declares closure args, R declares (invoke closure args)) :
    (index : Nat) → (ss : List Stmt) → Q (index + ss.length) (Stmt.execAll config invoke index ss)
  | index,[] => by
    rw [Stmt.execAll]
    exact kept.nil _ _
  | index,s :: ss => by
    rw [Stmt.execAll]
    refine kept.cons (by simp) s.span (kept.exec config calls s (.inl trivial)) fun flow => ?_
    cases flow with
    | returned value => exact kept.nil _ _
    | next =>
      have listed := kept.execAll config calls (index + 1) ss
      rwa [Nat.add_right_comm] at listed

end

/-- What holds in any scope holds of calls of declared functions, however many may be nested. -/
theorem invokeWithin (kept : Executing R S Q) (config : Config) :
    ∀ budget declares closure args, R declares (invokeWithin config budget closure args)
  | 0,declares,_,_ => (kept.evaluating declares).fail _
  | budget + 1,declares,function,args => by
    have own := kept.evaluating declares
    rw [TurtleScript.invokeWithin]
    refine own.bind (kept.callDepth declares) fun _ => own.ite (own.fail _) ?_
    refine kept.newScope declares function.scope fun id => ?_
    have inner := kept.sequential id
    refine inner.bind (kept.bindAll id _) fun _ => ?_
    refine inner.bind (kept.inCall (kept.inBlock id ?_)) fun flow => ?_
    · have listed := kept.execAll config (kept.invokeWithin config budget) 0 function.body
      rwa [Nat.zero_add] at listed
    · cases flow with
      | returned value => exact inner.pure _
      | next => exact inner.pure _

end Executing

/-- A property of computations that the ways of putting them together respect, beside one of
computations over the statements of a list of some length. -/
structure Compositional (P : {α : Type} → Script α → Prop) (Q : {α : Type} → Nat → Script α → Prop) :
    Prop where
  pure : ∀ {α : Type} (a : α), P (pure a : Script α)
  look : ∀ {α : Type} (f : World → α), P (look f)
  fail : ∀ {α : Type} (fault : Fault), P (fail fault : Script α)
  act : ∀ {α : Type} {action : Action α}, action.Contained → P (ofAction action)
  bind : ∀ {α β : Type} {m : Script α} {f : α → Script β}, P m → (∀ a, P (f a)) → P (m >>= f)
  locate : ∀ {α : Type} (span : Span) {m : Script α}, P m → P (locate span m)
  checkpoint : P checkpoint
  inCall : ∀ {α : Type} {m : Script α}, P m → P (inCall m)
  inBlock : ∀ {α : Type} (scope : FrameId) {length : Nat} {m : Script α}, Q length m →
    P (inBlock scope length m)
  nil : ∀ {α : Type} (a : α) (length : Nat), Q length (Pure.pure a : Script α)
  /-- One more statement in front of those behind it. -/
  cons : ∀ {α β : Type} {length index : Nat} (_ : index < length) (span : Span) {m : Script α}
    {rest : α → Script β}, P m → (∀ a, Q length (rest a)) →
      Q length do
        change fun w => { w with monitor := w.monitor.atStatement index span }
        rest (← m)

namespace Compositional

variable {P : {α : Type} → Script α → Prop} {Q : {α : Type} → Nat → Script α → Prop}

theorem inScope (kept : Compositional P Q) {α : Type} {f : FrameId → Action α}
    (contained : ∀ scope, (f scope).Contained) : P (inScope f) :=
  kept.bind (kept.look _) fun scope => kept.act (contained scope)

theorem newScope (kept : Compositional P Q) (parent : FrameId) : P (newScope parent) :=
  kept.act (Action.contained_renew _)

theorem evaluating (kept : Compositional P Q) : Evaluating P where
  pure := kept.pure
  fail := kept.fail
  bind := kept.bind
  locate := kept.locate
  frameless frameless := kept.act frameless.contained
  get _ := kept.inScope fun _ => Action.contained_inquire _
  assign _ _ := kept.inScope fun _ => Action.contained_assign _ _ _

theorem executing (kept : Compositional P Q) : Executing (fun _ => P) (fun _ => P) Q where
  evaluating _ := kept.evaluating
  sequential _ := kept.evaluating.toSequential
  checkpoint _ := kept.checkpoint
  callDepth _ := kept.look _
  scope _ := kept.look _
  declare _ _ _ := kept.inScope fun _ => Action.contained_define _ _ _
  define _ _ _ := kept.act (Action.contained_define _ _ _)
  inCall := kept.inCall
  inBlock := kept.inBlock
  newScope _ parent _ next := kept.bind (kept.newScope parent) next
  newBlock _ _ next := kept.bind (kept.look _) fun _ => kept.bind (kept.newScope _) next
  nil := kept.nil
  cons := kept.cons

theorem bindAll (kept : Compositional P Q) (scope : FrameId) (bindings : List (Name × Value)) :
    P (bindAll scope bindings) :=
  kept.executing.bindAll scope bindings

section
variable {invoke : Invoke} (kept : Compositional P Q) (config : Config)
  (calls : ∀ closure args, P (invoke closure args))
include kept calls

theorem call (function : Function) (args : List Value) : P (function.call invoke args) :=
  kept.evaluating.call calls function args

theorem eval (e : Expr) : P (e.eval invoke) := kept.evaluating.eval calls e

theorem evalAll (es : List Expr) : P (Expr.evalAll invoke es) := kept.evaluating.evalAll calls es

theorem exec (s : Stmt) : P (s.exec config invoke) :=
  kept.executing.exec config (fun _ => calls) s (.inl trivial)

end

theorem invokeWithin (kept : Compositional P Q) (config : Config) (budget : Nat) (closure : Closure)
    (args : List Value) : P (invokeWithin config budget closure args) :=
  kept.executing.invokeWithin config budget True closure args

theorem statements (kept : Compositional P Q) (config : Config) (program : Program) :
    Q program.statements.length (Stmt.execAll config (TurtleScript.invoke config) 0 program.statements) := by
  have calls := kept.executing.invokeWithin config config.maxCallDepth
  have listed := kept.executing.execAll config calls 0 program.statements
  rwa [Nat.zero_add] at listed

end Compositional

end TurtleScript
