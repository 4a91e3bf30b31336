import TurtleScript.Evaluate
import TurtleScript.Proofs.Scene

/-!
The meaning of programs without waiting. Here a program works on a scene from its beginning to its end
in one go: the scope of a statement and the calls that may still be nested are arguments, there is no
host to tell anything, and in front of a statement the turtle is simply put where it is bound to.
-/

namespace TurtleScript

/-- A computation on a scene that goes through to its end. -/
def Direct (α : Type) : Type := Scene → Except Interruption α × Scene

namespace Direct

variable {α β : Type}

instance : Monad Direct where
  pure a := fun s => (.ok a,s)
  bind m f := fun s =>
    match m s with
    | (.ok a,t) => f a t
    | (.error e,t) => (.error e,t)

theorem bind_ok {m : Direct α} {f : α → Direct β} {s t : Scene} {a : α} (out : m s = (.ok a,t)) :
    (m >>= f) s = f a t := by
  simp only [bind,out]

theorem bind_error {m : Direct α} {f : α → Direct β} {s t : Scene} {e : Interruption} (out : m s = (.error e,t)) :
    (m >>= f) s = (.error e,t) := by
  simp only [bind,out]

def fail (fault : Fault) : Direct α := fun s => (.error (.failed { fault := fault }),s)

def step (action : Action α) : Direct α := fun s =>
  match action.onScene s with
  | (.ok a,t) => (.ok a,t)
  | (.error fault,t) => (.error (.failed { fault := fault }),t)

def inquire (f : Store → Except Fault α) : Direct α := step (Action.inquire f)

/-- Failures inside are reported at a place, unless they have one. -/
def locate (span : Span) (m : Direct α) : Direct α := fun s =>
  match m s with
  | (.ok a,t) => (.ok a,t)
  | (.error e,t) => (.error (e.locate span),t)

def standStill : Direct Unit := fun s => (.ok (),{ s with sprite := s.sprite.stopGlide })

def newScope (parent : FrameId) : Direct FrameId := step (Action.renew (·.child parent))

/-- Repeats a body while a test holds, with at most `rounds` rounds left of the `limit` allowed. -/
def repeatWhile (limit : Nat) (test : Direct Bool) (body : Direct Flow) : Nat → Direct Flow
  | 0 => do if ← test then fail (.infiniteLoop limit) else return .next
  | rounds + 1 => do
    if ← test then
      match ← body with
      | .returned value => return .returned value
      | .next => do standStill; repeatWhile limit test body rounds
    else return .next

def bindAll (scope : FrameId) : List (Name × Value) → Direct Unit
  | [] => return ()
  | (name, value) :: rest => do
    locate name.span (step (Action.define scope name.text value))
    bindAll scope rest

/-- How a declared function is called with its arguments. -/
abbrev Calls := Closure → List Value → Direct Value

end Direct

open Direct (Calls)

/-- Calls a function, once it got as many arguments as it takes. -/
def Function.direct (calls : Calls) (function : Function) (args : List Value) : Direct Value :=
  if args.length ≠ function.arity then
    .fail (.arityMismatch function.name function.arity args.length)
  else
    match function with
    | .builtin b => .step (b.apply args)
    | .declared c => calls c args

mutual

/-- The value of an expression in a scope. -/
def Expr.direct (calls : Calls) (scope : FrameId) : Expr → Direct Value
  | .literal value span => Direct.locate span do return .ofLiteral value
  | .grouping inner span => Direct.locate span (inner.direct calls scope)
  | .var name span => Direct.locate span (Direct.inquire (·.get scope name))
  | .assign name value span => Direct.locate span do
    let value ← value.direct calls scope
    Direct.step (Action.assign scope name value)
    return value
  | .unary op operand span => Direct.locate span do
    let value ← operand.direct calls scope
    Direct.inquire fun _ => op.apply value
  | .binary op left right span => Direct.locate span do
    let left ← left.direct calls scope
    let right ← right.direct calls scope
    Direct.inquire fun _ => op.apply left right
  | .logical op left right span => Direct.locate span do
    let left ← left.direct calls scope
    if op.settledBy left then return left else right.direct calls scope
  | .call callee args span => Direct.locate span do
    match ← callee.direct calls scope with
    | .function function => do
      let args ← Expr.directAll calls scope args
      function.direct calls args
    | _ => .fail (.notCallable callee.shown)
  | .array items span => Direct.locate span do
    let items ← Expr.directAll calls scope items
    Direct.step (Action.renew (·.newArray items))
  | .index target position span => Direct.locate span do
    let target ← target.direct calls scope
    let position ← position.direct calls scope
    Direct.inquire (·.itemOf target position)

/-- The values of expressions in a scope, from left to right. -/
def Expr.directAll (calls : Calls) (scope : FrameId) : List Expr → Direct (List Value)
  | [] => return []
  | expr :: exprs => do
    let value ← expr.direct calls scope
    return value :: (← Expr.directAll calls scope exprs)

end

/-- The value of an expression that may be missing; null if it is. -/
def Expr.directOption (calls : Calls) (scope : FrameId) : Option Expr → Direct Value
  | some expr => expr.direct calls scope
  | none => return .null

mutual

/-- Executes a statement in a scope. -/
def Stmt.direct (config : Config) (calls : Calls) (scope : FrameId) : Stmt → Direct Flow
  | .expression value span => do
    Direct.standStill
    Direct.locate span do
      let _ ← value.direct calls scope
      return .next
  | .var name initial span => do
    Direct.standStill
    Direct.locate span do
      let value ← Expr.directOption calls scope initial
      Direct.locate name.span (Direct.step (Action.define scope name.text value))
      return .next
  | .function name params body span => do
    Direct.standStill
    Direct.locate span do
      let value ← Direct.step (Action.renew (·.newClosure scope name params body))
      Direct.locate name.span (Direct.step (Action.define scope name.text value))
      return .next
  | .block body span => do
    Direct.standStill
    Direct.locate span do
      let inner ← Direct.newScope scope
      Stmt.directAll config calls inner body
  | .branch test yes no span => do
    Direct.standStill
    Direct.locate span do
      if (← test.direct calls scope).truthy then yes.direct config calls scope
      else Stmt.directOption config calls scope no
  | .loop test body span => do
    Direct.standStill
    Direct.locate span
      (Direct.repeatWhile config.maxLoopIterations (do return (← test.direct calls scope).truthy)
        (body.direct config calls scope) config.maxLoopIterations)
  | .giveBack value span => do
    Direct.standStill
    Direct.locate span do return .returned (← Expr.directOption calls scope value)

def Stmt.directOption (config : Config) (calls : Calls) (scope : FrameId) : Option Stmt → Direct Flow
  | some stmt => stmt.direct config calls scope
  | none => return .next

/-- Executes statements one after the other, until one returns. -/
def Stmt.directAll (config : Config) (calls : Calls) (scope : FrameId) : List Stmt → Direct Flow
  | [] => return .next
  | stmt :: stmts => do
    match ← stmt.direct config calls scope with
    | .returned value => return .returned value
    | .next => Stmt.directAll config calls scope stmts

end

/-- Calls a declared function with `budget` nested calls left. -/
def Direct.callsWithin (config : Config) : Nat → Calls
  | 0, _, _ => .fail (.stackOverflow config.maxCallDepth)
  | budget + 1, function, args => do
    let scope ← Direct.newScope function.scope
    Direct.bindAll scope (function.params.zip args)
    match ← Stmt.directAll config (callsWithin config budget) scope function.body with
    | .returned value => return value
    | .next => return .null

/-- Runs a program in the global scope. -/
def Program.direct (config : Config) (program : Program) : Direct Flow :=
  Stmt.directAll config (Direct.callsWithin config config.maxCallDepth) Store.global program.statements

end TurtleScript
