import TurtleScript.Evaluate

/-!
Programs step by step. A machine is at a piece of code, waits in front of one, or has come back with
a result, and what is left to do is on its stack. Each step looks at one node of the program, one
parameter of a function or one piece of a text. Nothing in the machine bounds how many steps it takes:
rounds of loops are counted up, nested calls by the counter of the world, the code of a function is
found when it is called, and an array to be written is looked into again wherever it turns up.
-/

namespace TurtleScript

/-- A piece of a text to be written: a text, or a value inside a number of arrays. -/
inductive Piece where
  | text (text : String)
  | value (depth : Nat) (a : Value)

/-- Code that comes to a result of some type. -/
inductive Code : Type → Type where
  | expr (e : Expr) : Code Value
  /-- Expressions from left to right. -/
  | exprs (es : List Expr) : Code (List Value)
  /-- A statement, at its checkpoint. -/
  | stmt (s : Stmt) : Code Flow
  /-- A statement behind its checkpoint. -/
  | inside (s : Stmt) : Code Flow
  /-- The statements of a list from an index on. -/
  | stmts (index : Nat) (ss : List Stmt) : Code Flow
  /-- A loop in front of its test, with a number of rounds behind it. -/
  | rounds (test : Expr) (body : Stmt) (begun : Nat) : Code Flow
  /-- A loop at the checkpoint between two rounds. -/
  | between (test : Expr) (body : Stmt) (begun : Nat) : Code Flow
  | call (c : Closure) (args : List Value) : Code Value
  | params (scope : FrameId) (bindings : List (Name × Value)) : Code Unit
  /-- What is to be written behind what is written. -/
  | text (pieces : List Piece) (written : String) : Code String

/-- What is left behind, however the code in it ends. -/
inductive Exit where
  | block (outer : FrameId)
  | call (depth : Nat)
  | program

def Exit.leave : Exit → World → World
  | .block outer, w => { w with scope := outer, monitor := w.monitor.exitBlock }
  | .call depth, w => { w with callDepth := depth }
  | .program, w => { w with monitor := { w.monitor with scope := some Store.global } }

/-- What is left to do with a result of one type to get one of another type. -/
inductive Rest : Type → Type → Type 1 where
  | located {α : Type} (span : Span) : Rest α α
  | exit {α : Type} (x : Exit) : Rest α α
  | assign (name : String) : Rest Value Value
  | assigned (a : Value) : Rest Unit Value
  | unary (op : UnaryOp) : Rest Value Value
  | left (op : BinaryOp) (right : Expr) : Rest Value Value
  | right (op : BinaryOp) (left : Value) : Rest Value Value
  | decider (op : LogicalOp) (right : Expr) : Rest Value Value
  | callee (callee : Expr) (args : List Expr) : Rest Value Value
  | arguments (f : Function) : Rest (List Value) Value
  | items : Rest (List Value) Value
  | target (position : Expr) : Rest Value Value
  | position (target : Value) : Rest Value Value
  | first (es : List Expr) : Rest Value (List Value)
  | others (a : Value) : Rest (List Value) (List Value)
  | effect {α : Type} : Rest α Flow
  | initial (name : Name) : Rest Value Flow
  | result : Rest Value Flow
  | test (yes : Stmt) (no : Option Stmt) : Rest Value Flow
  | entered (body : List Stmt) : Rest FrameId Flow
  | next (index : Nat) (ss : List Stmt) : Rest Flow Flow
  | condition (test : Expr) (body : Stmt) (begun : Nat) : Rest Value Flow
  | round (test : Expr) (body : Stmt) (begun : Nat) : Rest Flow Flow
  | scoped (c : Closure) (args : List Value) : Rest FrameId Value
  | bound (scope : FrameId) (c : Closure) : Rest Unit Value
  | param (scope : FrameId) (bindings : List (Name × Value)) : Rest Unit Unit
  | body : Rest Flow Value
  | printed : Rest String Value
  | asText : Rest String Value

/-- All that is left to do with a result until the program ends. -/
inductive Stack : Type → Type 1 where
  | empty : Stack Flow
  | push {α β : Type} (rest : Stack β) (r : Rest α β) : Stack α

/-- A program being executed. -/
inductive Machine : Type 1 where
  | doing {α : Type} (code : Code α) (rest : Stack α) (world : World)
  /-- It waits for the turtle in front of code. -/
  | waiting {α : Type} (code : Code α) (rest : Stack α) (world : World)
  | giving {α : Type} (result : Except Interruption α) (rest : Stack α) (world : World)

namespace Machine

variable {α β : Type}

def give (a : α) (rest : Stack α) (w : World) : Machine := .giving (.ok a) rest w

def fail (fault : Fault) (rest : Stack α) (w : World) : Machine :=
  .giving (.error (.failed { fault := fault })) rest w

def act (action : Action α) (rest : Stack α) (w : World) : Machine :=
  match action.run.run w with
  | (.ok a,v) => .give a rest v
  | (.error fault,v) => .fail fault rest v

def stop (rest : Stack α) (w : World) : Machine :=
  .giving (.error .killed) rest { w with sprite := w.sprite.stopGlide }

def pause (code : Code α) (rest : Stack α) (w : World) : Machine :=
  if w.monitor.killRequested then .stop rest w
  else
    let told := { w with monitor := { w.monitor with scope := some w.scope } }
    if w.sprite.gliding then .waiting code rest told else .doing code rest told

def option (e : Option Expr) (rest : Stack Value) (w : World) : Machine :=
  match e with
  | some e => .doing (.expr e) rest w
  | none => .give .null rest w

/-- Executes statements as a list of its own, in a scope. -/
def enter (scope : FrameId) (ss : List Stmt) (rest : Stack Flow) (w : World) : Machine :=
  .doing (.stmts 0 ss) (rest.push (.exit (.block w.scope)))
    { w with scope := scope, monitor := w.monitor.enterBlock ss.length }

end Machine

def Expr.begin (e : Expr) (rest : Stack Value) (w : World) : Machine :=
  match e with
  | .literal value _ => .give (.ofLiteral value) rest w
  | .grouping inner _ => .doing (.expr inner) rest w
  | .var name _ => .act (Action.inquire (·.get w.scope name)) rest w
  | .assign name value _ => .doing (.expr value) (rest.push (.assign name)) w
  | .unary op operand _ => .doing (.expr operand) (rest.push (.unary op)) w
  | .binary op left right _ => .doing (.expr left) (rest.push (.left op right)) w
  | .logical op left right _ => .doing (.expr left) (rest.push (.decider op right)) w
  | .call callee args _ => .doing (.expr callee) (rest.push (.callee callee args)) w
  | .array items _ => .doing (.exprs items) (rest.push .items) w
  | .index target position _ => .doing (.expr target) (rest.push (.target position)) w

def Stmt.begin (s : Stmt) (rest : Stack Flow) (w : World) : Machine :=
  match s with
  | .expression value _ => .doing (.expr value) (rest.push .effect) w
  | .var name initial _ => .option initial (rest.push (.initial name)) w
  | .function name params body _ =>
    .act (Action.renew (·.newClosure w.scope name params body)) (rest.push (.initial name)) w
  | .block body _ => .act (Action.renew (·.child w.scope)) (rest.push (.entered body)) w
  | .branch test yes no _ => .doing (.expr test) (rest.push (.test yes no)) w
  | .loop test body _ => .doing (.rounds test body 0) rest w
  | .giveBack value _ => .option value (rest.push .result) w

def Piece.items (depth : Nat) (items : List Value) : List Piece :=
  (items.map (Piece.value depth)).intersperse (.text ", ")

/-- One step of code. -/
def Code.step (config : Config) : {α : Type} → Code α → Stack α → World → Machine
  | _, .expr e, rest, w => e.begin (rest.push (.located e.span)) w
  | _, .exprs [], rest, w => .give [] rest w
  | _, .exprs (e :: es), rest, w => .doing (.expr e) (rest.push (.first es)) w
  | _, .stmt s, rest, w => .pause (.inside s) rest w
  | _, .inside s, rest, w => s.begin (rest.push (.located s.span)) w
  | _, .stmts _ [], rest, w => .give .next rest w
  | _, .stmts index (s :: ss), rest, w =>
    .doing (.stmt s) (rest.push (.next (index + 1) ss)) { w with monitor := w.monitor.atStatement index s.span }
  | _, .rounds test body begun, rest, w => .doing (.expr test) (rest.push (.condition test body begun)) w
  | _, .between test body begun, rest, w => .pause (.rounds test body begun) rest w
  | _, .call c args, rest, w =>
    if config.maxCallDepth ≤ w.callDepth then .fail (.stackOverflow config.maxCallDepth) rest w
    else .act (Action.renew (·.child c.scope)) (rest.push (.scoped c args)) w
  | _, .params _ [], rest, w => .give () rest w
  | _, .params scope ((name,a) :: bindings), rest, w =>
    .act (Action.define scope name.text a) ((rest.push (.param scope bindings)).push (.located name.span)) w
  | _, .text [] written, rest, w => .give written rest w
  | _, .text (.text more :: pieces) written, rest, w => .doing (.text pieces (written ++ more)) rest w
  | _, .text (.value depth (.array id) :: pieces) written, rest, w =>
    if Store.shownNesting ≤ depth then .doing (.text pieces (written ++ "[...]")) rest w
    else
      let items := Piece.items (depth + 1) (w.store.items id)
      .doing (.text (.text "[" :: (items ++ .text "]" :: pieces)) written) rest w
  -- All other values are texts by themselves, with no array to look into.
  | _, .text (.value _ a :: pieces) written, rest, w =>
    .doing (.text pieces (written ++ w.store.shownWithin 0 a)) rest w

def Function.begin (f : Function) (args : List Value) (rest : Stack Value) (w : World) : Machine :=
  if args.length ≠ f.arity then .fail (.arityMismatch f.name f.arity args.length) rest w
  else
    match f, args with
    | .builtin .print, [a] => .doing (.text [.value 0 a] "") (rest.push .printed) w
    | .builtin .toString, [a] => .doing (.text [.value 0 a] "") (rest.push .asText) w
    | .builtin b, args => .act (b.apply args) rest w
    | .declared c, args => .doing (.call c args) rest w

def Rest.take (config : Config) : {α β : Type} → Rest α β → α → Stack β → World → Machine
  | _, _, .located _, a, rest, w => .give a rest w
  | _, _, .exit x, a, rest, w => .give a rest (x.leave w)
  | _, _, .assign name, a, rest, w => .act (Action.assign w.scope name a) (rest.push (.assigned a)) w
  | _, _, .assigned a, _, rest, w => .give a rest w
  | _, _, .unary op, a, rest, w => .act (Action.inquire fun _ => op.apply a) rest w
  | _, _, .left op e, a, rest, w => .doing (.expr e) (rest.push (.right op a)) w
  | _, _, .right op a, b, rest, w => .act (Action.inquire fun _ => op.apply a b) rest w
  | _, _, .decider op e, a, rest, w => if op.settledBy a then .give a rest w else .doing (.expr e) rest w
  | _, _, .callee _ args, .function f, rest, w => .doing (.exprs args) (rest.push (.arguments f)) w
  | _, _, .callee e _, _, rest, w => .fail (.notCallable e.shown) rest w
  | _, _, .arguments f, args, rest, w => f.begin args rest w
  | _, _, .items, as, rest, w => .act (Action.renew (·.newArray as)) rest w
  | _, _, .target e, a, rest, w => .doing (.expr e) (rest.push (.position a)) w
  | _, _, .position a, b, rest, w => .act (Action.inquire (·.itemOf a b)) rest w
  | _, _, .first es, a, rest, w => .doing (.exprs es) (rest.push (.others a)) w
  | _, _, .others a, as, rest, w => .give (a :: as) rest w
  | _, _, .effect, _, rest, w => .give .next rest w
  | _, _, .initial name, a, rest, w =>
    .act (Action.define w.scope name.text a) ((rest.push .effect).push (.located name.span)) w
  | _, _, .result, a, rest, w => .give (.returned a) rest w
  | _, _, .test yes no, a, rest, w =>
    if a.truthy then .doing (.stmt yes) rest w
    else
      match no with
      | some no => .doing (.stmt no) rest w
      | none => .give .next rest w
  | _, _, .entered ss, scope, rest, w => .enter scope ss rest w
  | _, _, .next index ss, .next, rest, w => .doing (.stmts index ss) rest w
  | _, _, .next _ _, .returned a, rest, w => .give (.returned a) rest w
  | _, _, .condition e s begun, a, rest, w =>
    if a.truthy then
      if config.maxLoopIterations < begun + 1 then .fail (.infiniteLoop config.maxLoopIterations) rest w
      else .doing (.stmt s) (rest.push (.round e s (begun + 1))) w
    else .give .next rest w
  | _, _, .round e s begun, .next, rest, w => .doing (.between e s begun) rest w
  | _, _, .round _ _ _, .returned a, rest, w => .give (.returned a) rest w
  | _, _, .scoped c args, scope, rest, w =>
    .doing (.params scope (c.params.zip args)) (rest.push (.bound scope c)) w
  | _, _, .bound scope c, _, rest, w =>
    .enter scope c.body ((rest.push .body).push (.exit (.call w.callDepth))) { w with callDepth := w.callDepth + 1 }
  | _, _, .param scope bindings, _, rest, w => .doing (.params scope bindings) rest w
  | _, _, .body, .next, rest, w => .give .null rest w
  | _, _, .body, .returned a, rest, w => .give a rest w
  | _, _, .printed, text, rest, w => .act (do Action.print text; return .null) rest w
  | _, _, .asText, text, rest, w => .give (.text text) rest w

/-- What an interruption does to what is left to do. -/
def Rest.drop : {α β : Type} → Rest α β → Interruption → Stack β → World → Machine
  | _, _, .located span, e, rest, w => .giving (.error (e.locate span)) rest w
  | _, _, .exit x, e, rest, w => .giving (.error e) rest (x.leave w)
  | _, _, _, e, rest, w => .giving (.error e) rest w

namespace Machine

/-- One step, if there is one. A machine that waits takes none until the turtle stands still or the
run is asked to stop. -/
def step (config : Config) : Machine → Option Machine
  | .doing code rest w => some (code.step config rest w)
  | .waiting code rest w =>
    if w.monitor.killRequested then some (.stop rest w)
    else if w.sprite.gliding then none
    else some (.doing code rest w)
  | .giving _ .empty _ => none
  | .giving (.ok a) (.push rest r) w => some (r.take config a rest w)
  | .giving (.error e) (.push rest r) w => some (r.drop e rest w)

/-- The machine a number of steps later, or where it rests by then. -/
def after (config : Config) : Nat → Machine → Machine
  | 0, m => m
  | n + 1, m =>
    match m.step config with
    | some later => later.after config n
    | none => m

theorem after_of_rests {config : Config} {m : Machine} (rests : m.step config = none) (n : Nat) :
    m.after config n = m := by
  cases n with
  | zero => rfl
  | succ n => rw [after,rests]

theorem after_add (config : Config) (n k : Nat) (m : Machine) :
    m.after config (n + k) = (m.after config n).after config k := by
  induction n generalizing m with
  | zero => rw [Nat.zero_add,after]
  | succ n ih =>
    rw [Nat.succ_add,after,after]
    cases stepped : m.step config with
    | some later => exact ih later
    | none => exact (after_of_rests stepped k).symm

/-- The machine gets to another one in finitely many steps. -/
def Comes (config : Config) (m later : Machine) : Prop := ∃ n, m.after config n = later

theorem Comes.refl {config : Config} (m : Machine) : Comes config m m := ⟨0,rfl⟩

theorem Comes.trans {config : Config} {l m n : Machine} (first : Comes config l m) (second : Comes config m n) :
    Comes config l n := by
  obtain ⟨i,rfl⟩ := first
  obtain ⟨j,rfl⟩ := second
  exact ⟨i + j,after_add config i j l⟩

theorem Comes.of_step {config : Config} {m later : Machine} (stepped : m.step config = some later) :
    Comes config m later := by
  refine ⟨1,?_⟩
  rw [after,stepped]
  rfl

theorem Comes.unique {config : Config} {m a b : Machine} (first : Comes config m a) (second : Comes config m b)
    (restsFirst : a.step config = none) (restsSecond : b.step config = none) : a = b := by
  obtain ⟨i,rfl⟩ := first
  obtain ⟨j,rfl⟩ := second
  rw [← after_of_rests restsFirst j,← after_add,Nat.add_comm,after_add,after_of_rests restsSecond]

end Machine

/-- The machine in front of a program. -/
def Program.machine (program : Program) (w : World) : Machine :=
  .enter Store.global program.statements (Stack.empty.push (.exit .program))
    { w with callDepth := 0, scope := Store.global }

end TurtleScript
