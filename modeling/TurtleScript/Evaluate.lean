import TurtleScript.Library
import TurtleScript.Script

/-!
The meaning of programs. Expressions and statements are evaluated by recursion on their trees; how a
declared function is called is a parameter of that recursion, and is itself defined by recursion on
the number of calls that may still be nested.
-/

namespace TurtleScript

/-- How a statement ends, if nothing interrupts it. -/
inductive Flow where
  | next
  | returned (value : Value)
deriving Repr

/-- The value of an operator in front of its operand. -/
def UnaryOp.apply (op : UnaryOp) (value : Value) : Except Fault Value :=
  match op, value with
  | .neg, .number x => .ok (.number (-x))
  | .neg, other => .error (.typeError s!"Operand of '-' must be a number, got {other.typeName}.")
  | .not, value => .ok (.bool (!value.truthy))

/-- The value of an operator between two numbers. -/
def BinaryOp.onNumbers (op : BinaryOp) (a b : Float) : Value :=
  match op with
  | .add => .number (a + b)
  | .sub => .number (a - b)
  | .mul => .number (a * b)
  | .div => .number (a / b)
  | .eq => .bool (a == b)
  | .ne => .bool (a != b)
  | .lt => .bool (a < b)
  | .gt => .bool (a > b)
  | .le => .bool (a ≤ b)
  | .ge => .bool (a ≥ b)

/-- The value of an operator between two values. Anything can be compared for equality, two texts
can be joined, and the rest takes numbers. -/
def BinaryOp.apply (op : BinaryOp) (left right : Value) : Except Fault Value :=
  match op, left, right with
  | .eq, left, right => .ok (.bool (left.equal right))
  | .ne, left, right => .ok (.bool (!left.equal right))
  | op, .number a, .number b => .ok (op.onNumbers a b)
  | .add, .text a, .text b => .ok (.text (a ++ b))
  | .add, left, right =>
    .error (.typeError
      s!"Operands of '+' must be two numbers or two strings, got {left.typeName} and {right.typeName}.")
  | op, left, right =>
    .error (.typeError
      s!"Operands of '{op.text}' must be numbers, got {left.typeName} and {right.typeName}.")

/-- Whether the left operand alone is the value. -/
def LogicalOp.settledBy (op : LogicalOp) (left : Value) : Bool :=
  match op with
  | .or => left.truthy
  | .and => !left.truthy

/-- How a declared function is called with its arguments. -/
abbrev Invoke := Closure → List Value → Script Value

/-- Calls a function, once it got as many arguments as it takes. -/
def Function.call (invoke : Invoke) (function : Function) (args : List Value) : Script Value :=
  if args.length ≠ function.arity then
    .fail (.arityMismatch function.name function.arity args.length)
  else
    match function with
    | .builtin b => .ofAction (b.apply args)
    | .declared c => invoke c args

/-- A result of the store that may be a fault. -/
def Script.inquire {α : Type} (f : Store → Except Fault α) : Script α := ofAction (Action.inquire f)

def Script.inScope {α : Type} (f : FrameId → Action α) : Script α := do
  ofAction (f (← look World.scope))

mutual

def Expr.eval (invoke : Invoke) : Expr → Script Value
  | .literal value span => Script.locate span do return .ofLiteral value
  | .grouping inner span => Script.locate span (inner.eval invoke)
  | .var name span => Script.locate span (Script.inScope fun scope => Action.inquire (·.get scope name))
  | .assign name value span => Script.locate span do
    let value ← value.eval invoke
    Script.inScope (Action.assign · name value)
    return value
  | .unary op operand span => Script.locate span do
    let value ← operand.eval invoke
    Script.inquire fun _ => op.apply value
  | .binary op left right span => Script.locate span do
    let left ← left.eval invoke
    let right ← right.eval invoke
    Script.inquire fun _ => op.apply left right
  | .logical op left right span => Script.locate span do
    let left ← left.eval invoke
    if op.settledBy left then return left else right.eval invoke
  | .call callee args span => Script.locate span do
    match ← callee.eval invoke with
    | .function function => do
      let args ← Expr.evalAll invoke args
      function.call invoke args
    | _ => .fail (.notCallable callee.shown)
  | .array items span => Script.locate span do
    let items ← Expr.evalAll invoke items
    Script.ofAction (Action.renew (·.newArray items))
  | .index target position span => Script.locate span do
    let target ← target.eval invoke
    let position ← position.eval invoke
    Script.inquire (·.itemOf target position)

/-- The values of expressions, from left to right. -/
def Expr.evalAll (invoke : Invoke) : List Expr → Script (List Value)
  | [] => return []
  | expr :: exprs => do
    let value ← expr.eval invoke
    return value :: (← Expr.evalAll invoke exprs)

end

/-- The value of an expression that may be missing; null if it is. -/
def Expr.evalOption (invoke : Invoke) : Option Expr → Script Value
  | some expr => expr.eval invoke
  | none => return .null

def Script.newScope (parent : FrameId) : Script FrameId := ofAction (Action.renew (·.child parent))

/-- Repeats a body while a test holds, with at most `rounds` rounds left of the `limit` allowed.
There is a checkpoint in front of every test but the first. A loop that counts the rounds it has begun in
a machine word does the same, as long as the limit is less than the greatest word. -/
def Script.repeatWhile (limit : Nat) (test : Script Bool) (body : Script Flow) : Nat → Script Flow
  | 0 => do if ← test then fail (.infiniteLoop limit) else return .next
  | rounds + 1 => do
    if ← test then
      match ← body with
      | .returned value => return .returned value
      | .next => do checkpoint; repeatWhile limit test body rounds
    else return .next

mutual

def Stmt.exec (config : Config) (invoke : Invoke) : Stmt → Script Flow
  | .expression value span => do
    Script.checkpoint
    Script.locate span do
      let _ ← value.eval invoke
      return .next
  | .var name initial span => do
    Script.checkpoint
    Script.locate span do
      let value ← Expr.evalOption invoke initial
      Script.locate name.span (Script.inScope (Action.define · name.text value))
      return .next
  | .function name params body span => do
    Script.checkpoint
    Script.locate span do
      let scope ← Script.look World.scope
      let value ← Script.ofAction (Action.renew (·.newClosure scope name params body))
      Script.locate name.span (Script.inScope (Action.define · name.text value))
      return .next
  | .block body span => do
    Script.checkpoint
    Script.locate span do
      let scope ← Script.newScope (← Script.look World.scope)
      Script.inBlock scope body.length (Stmt.execAll config invoke 0 body)
  | .branch test yes no span => do
    Script.checkpoint
    Script.locate span do
      if (← test.eval invoke).truthy then yes.exec config invoke
      else Stmt.execOption config invoke no
  | .loop test body span => do
    Script.checkpoint
    Script.locate span
      (Script.repeatWhile config.maxLoopIterations (do return (← test.eval invoke).truthy)
        (body.exec config invoke) config.maxLoopIterations)
  | .giveBack value span => do
    Script.checkpoint
    Script.locate span do return .returned (← Expr.evalOption invoke value)

def Stmt.execOption (config : Config) (invoke : Invoke) : Option Stmt → Script Flow
  | some stmt => stmt.exec config invoke
  | none => return .next

/-- Executes statements one after the other, the first of which is the one of the given index in
its list. -/
def Stmt.execAll (config : Config) (invoke : Invoke) (index : Nat) : List Stmt → Script Flow
  | [] => return .next
  | stmt :: stmts => do
    Script.change fun w => { w with monitor := w.monitor.atStatement index stmt.span }
    match ← stmt.exec config invoke with
    | .returned value => return .returned value
    | .next => Stmt.execAll config invoke (index + 1) stmts

end

def Script.bindAll (scope : FrameId) : List (Name × Value) → Script Unit
  | [] => return ()
  | (name, value) :: rest => do
    Script.locate name.span (ofAction (Action.define scope name.text value))
    bindAll scope rest

/-- Calls a declared function with `budget` nested calls left. Its body runs in a new scope inside
the one it was declared in; without a `return` its value is null. -/
def invokeWithin (config : Config) : Nat → Invoke
  | 0, _, _ => .fail (.stackOverflow config.maxCallDepth)
  | budget + 1, function, args => do
    if config.maxCallDepth ≤ (← Script.look World.callDepth) then
      .fail (.stackOverflow config.maxCallDepth)
    else
      let scope ← Script.newScope function.scope
      Script.bindAll scope (function.params.zip args)
      let flow ← Script.inCall (Script.inBlock scope function.body.length
        (Stmt.execAll config (invokeWithin config budget) 0 function.body))
      match flow with
      | .returned value => return value
      | .next => return .null

def invoke (config : Config) : Invoke := invokeWithin config config.maxCallDepth

/-- Runs a program in the global scope, and shows that scope at its end. -/
def Program.script (config : Config) (program : Program) : Script Flow := fun w =>
  let start := { w with callDepth := 0, scope := Store.global }
  (Script.inBlock Store.global program.statements.length
    (Stmt.execAll config (invoke config) 0 program.statements) start).atEnd fun after =>
      { after with monitor := { after.monitor with scope := some Store.global } }

end TurtleScript
