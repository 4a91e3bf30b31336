import TurtleScript.Program.Grammar
import TurtleScript.Proofs.Settings

/-!
Laws of the parsers of the grammar. A law is a property of parsers that each step has and each way of putting
parsers together keeps (`Law`); then every rule of the grammar has it, at every nesting level
(`Nested.level_lawful`). A law may speak of how many levels there are for the rules below, and of whether a
token has been consumed: since some point before the parser, and since then behind it.
-/

namespace TurtleScript.Program

open TurtleScript.Program.Parser

theorem Parser.look_bind {α β : Type} (f : State → α) (g : α → Parser β) (s : State) :
    (look f >>= g) s = g (f s) s := rfl

/-- The expression that the next token stands for by itself. -/
def leaf : Parser Expr := do
  let token ← look State.next
  match Nested.leaf? token with
  | .ok expr => advance; return expr
  | .error complaint => fail complaint

/-- A property of parsers that goes through the grammar. It is told of the levels there are below (`room`), of
whether a token is known to be consumed in front (`before`) and of whether one is known to be behind. -/
structure Law where
  holds : (room : Nat) → (before behind : Bool) → {α : Type} → Parser α → Prop
  pure {n a} {α : Type} (value : α) : holds n a a (pure value : Parser α)
  bind {n a b c} {α β : Type} {p : Parser α} {f : α → Parser β} :
    holds n a b p → (∀ value, holds n b c (f value)) → holds n a c (p >>= f)
  /-- What does without a token in front does with one. -/
  late {n b} {α : Type} {p : Parser α} : holds n false b p → holds n true true p
  /-- A token that has been consumed need not be told. -/
  forget {n a} {α : Type} {p : Parser α} : holds n a true p → holds n a false p
  last {n a} : holds n a a last
  sees {n a} (kind : Token.Kind) : holds n a a (sees kind)
  spanFrom {n a} (start : Span) : holds n a a (spanFrom start)
  advance {n a} : holds n a a advance
  deepen {n a} : holds n a a deepen
  accept {n a b} {α : Type} {kind : Token.Kind} {f : Bool → Parser α} :
    holds n true b (f true) → holds n a b (f false) → holds n a b (accept kind >>= f)
  expect {n a} (kind : Token.Kind) {complaint : Complaint} : complaint ≠ .nesting →
    holds n a true (expect kind complaint)
  /-- One end mark is as good as another. -/
  next {n a b} {α : Type} {f : Token → Parser α} : (∀ token, holds n a b (f token)) →
    (∀ token token' : Token, token.kind = .endOfFile → token'.kind = .endOfFile → f token = f token') →
    holds n a b (look State.next >>= f)
  leaf {n} : holds n false true leaf
  /-- A complaint that nothing follows from, behind what has been consumed. -/
  retort {n} {α β : Type} {p : Parser α} (token : Token) (value : β) : holds n false true p →
    holds n true true (p >>= fun _ => change (·.complain token .target) >>= fun _ => Pure.pure value)
  /-- Below the last level nothing is parsed. -/
  nested {n a b} {α : Type} {p : Parser α} : (∀ fewer, n = fewer + 1 → holds fewer a b p) →
    (n = 0 → p = fail .nesting) → holds n a b (nested p)
  levelled {n a b} {α : Type} {p : Parser α} : holds n a b p → holds n a b (levelled p)
  /-- The tokens left may bound how often something is done. -/
  bounded {n a b} {α : Type} {p : List Token → Parser α} : (∀ bound, holds n a b (p bound)) →
    holds n a b fun s => p s.rest s
  many {n} {α : Type} {stop : State → Bool} {item : Parser α} :
    (∀ s t : State, s.rest = t.rest → stop s = stop t) → (∀ s : State, s.rest = [] → stop s = true) →
    holds n false true item → holds n true true (many stop item)

namespace Law

variable (law : Law) {n : Nat} {a b c : Bool} {α β : Type}

theorem map {p : Parser α} (lawful : law.holds n a b p) (f : α → β) : law.holds n a b (f <$> p) :=
  law.bind lawful fun value => law.pure (f value)

/-- What does without a token in front does with one, and need not tell of another. -/
theorem behind {p : Parser α} (lawful : law.holds n false true p) (a : Bool) : law.holds n a true p := by
  cases a with
  | false => exact lawful
  | true => exact law.late lawful

theorem chosen {kind : Token.Kind} {p q : Parser α} {f : α → Parser β} (yes : law.holds n true b p)
    (no : law.holds n a b q) (rest : ∀ value, law.holds n b c (f value)) :
    law.holds n a c (do
      let value ← if ← Parser.accept kind then p else q
      f value) := by
  rw [choose_bind]
  exact law.bind (law.accept yes no) rest

theorem seen {kind : Token.Kind} {p q : Parser α} (yes : law.holds n a b p) (no : law.holds n a b q) :
    law.holds n a b (do if ← Parser.sees kind then p else q) := by
  refine law.bind (law.sees kind) fun sees => ?_
  cases sees with
  | false => exact no
  | true => exact yes

theorem extend {step : α → Parser (Option α)} (steps : ∀ value, law.holds n true true (step value)) (value : α) :
    law.holds n true true (Parser.extend step value) := by
  refine law.bounded (p := fun bound => extendWithin step bound value) fun bound => ?_
  induction bound generalizing value with
  | nil => exact law.pure value
  | cons token bound ih =>
    refine law.bind (steps value) fun next => ?_
    cases next with
    | none => exact law.pure value
    | some value => exact ih value

theorem commaSeparated {item : Parser α} (items : law.holds n false true item) :
    law.holds n false true (Parser.commaSeparated item) := by
  refine law.bounded (p := commaSeparatedWithin item) fun bound => ?_
  induction bound with
  | nil => exact law.bind items fun value => law.pure [value]
  | cons token bound ih =>
    exact law.bind items fun first => law.accept (law.bind (law.late ih) fun later => law.pure (first :: later))
      (law.pure [first])

end Law

namespace Nested

variable {law : Law} {inner : Nested} {n : Nat} {a : Bool}

/-- A law for the rules that other rules call one level deeper. -/
structure Lawful (law : Law) (n : Nat) (inner : Nested) : Prop where
  assignment : law.holds n false true (nested inner.assignment)
  unary : law.holds n false true (nested inner.unary)
  declaration : law.holds n false true (nested inner.declaration)
  statement : law.holds n false true (nested inner.statement)

/-! ### Expressions -/

theorem Lawful.expression (lawful : inner.Lawful law n) (a : Bool) : law.holds n a true inner.expression :=
  law.behind lawful.assignment a

theorem Lawful.arguments (lawful : inner.Lawful law n) (close : Token.Kind) {complaint : Complaint}
    (other : complaint ≠ .nesting) : law.holds n a true (inner.arguments close complaint) := by
  unfold Nested.arguments
  rw [choose_bind]
  refine law.bind (b := a) (law.seen (law.pure []) ?_) fun items =>
    law.bind (law.expect close other) fun _ => law.pure items
  cases a with
  | false => exact law.forget (law.commaSeparated lawful.assignment)
  | true => exact law.late (law.commaSeparated lawful.assignment)

theorem primary_eq (inner : Nested) : inner.primary = (do
    let token ← look State.next
    match token.kind with
    | .leftParen =>
      advance
      let content ← inner.expression
      let _ ← expect .rightParen .groupClose
      return .grouping content (← spanFrom token.span)
    | .leftBracket =>
      advance
      let items ← inner.arguments .rightBracket .arrayClose
      return .array items (← spanFrom token.span)
    | _ => leaf) := by
  funext s
  rw [primary,look_bind,look_bind]
  cases s.next.kind <;> rfl

theorem Lawful.primary (lawful : inner.Lawful law n) : law.holds n false true inner.primary := by
  rw [primary_eq]
  refine law.next (fun token => ?_) fun token token' ends ends' => ?_
  · split
    · exact law.bind law.advance fun _ => law.bind (lawful.expression _) fun _ =>
        law.bind (law.expect _ (by decide)) fun _ => law.bind (law.spanFrom _) fun _ => law.pure _
    · exact law.bind law.advance fun _ => law.bind (lawful.arguments _ (by decide)) fun _ =>
        law.bind (law.spanFrom _) fun _ => law.pure _
    · exact law.leaf
  · rw [ends,ends']

theorem Lawful.suffixed (lawful : inner.Lawful law n) (target : Expr) : law.holds n true true (inner.suffixed target) := by
  refine law.seen ?_ (law.seen ?_ (law.pure none))
  · exact law.bind law.deepen fun _ => law.bind law.advance fun _ =>
      law.bind (lawful.arguments _ (by decide)) fun _ => law.bind (law.spanFrom _) fun _ => law.pure _
  · exact law.bind law.deepen fun _ => law.bind law.advance fun _ => law.bind (lawful.expression _) fun _ =>
      law.bind (law.expect _ (by decide)) fun _ => law.bind (law.spanFrom _) fun _ => law.pure _

theorem Lawful.call (lawful : inner.Lawful law n) : law.holds n false true inner.call :=
  law.levelled (law.bind lawful.primary fun e => law.extend lawful.suffixed e)

theorem Lawful.unaryRule (lawful : inner.Lawful law n) : law.holds n false true inner.unaryRule := by
  refine law.next (fun token => ?_) fun token token' ends ends' => ?_
  · split
    · exact law.bind law.advance fun _ => law.bind lawful.unary fun _ => law.pure _
    · exact lawful.call
  · simp only [ends,ends',unaryOp?]

theorem lawful_operand {op? : Token.Kind → Option BinaryOp} {tighter : Parser Expr}
    (lawful : law.holds n false true tighter) (left : Expr) : law.holds n true true (operand op? tighter left) := by
  refine law.next (fun token => ?_) fun token token' ends ends' => ?_
  · split
    · exact law.bind law.deepen fun _ => law.bind law.advance fun _ =>
        law.bind (law.behind lawful true) fun _ => law.pure _
    · exact law.pure none
  · rw [ends,ends']

theorem lawful_binaryLevel {op? : Token.Kind → Option BinaryOp} {tighter : Parser Expr}
    (lawful : law.holds n false true tighter) : law.holds n false true (binaryLevel op? tighter) :=
  law.levelled (law.bind lawful fun e => law.extend (lawful_operand lawful) e)

theorem Lawful.equality (lawful : inner.Lawful law n) : law.holds n false true inner.equality :=
  lawful_binaryLevel (lawful_binaryLevel (lawful_binaryLevel (lawful_binaryLevel lawful.unaryRule)))

theorem Lawful.logicalOperand (lawful : inner.Lawful law n) (left : Expr) :
    law.holds n true true (inner.logicalOperand left) := by
  refine law.next (fun token => ?_) fun token token' ends ends' => ?_
  · split
    · exact law.bind law.advance fun _ => law.bind law.deepen fun _ =>
        law.bind (law.behind lawful.equality true) fun _ => law.pure _
    · exact law.pure none
  · rw [ends,ends']

theorem Lawful.logical (lawful : inner.Lawful law n) : law.holds n false true inner.logical :=
  law.levelled (law.bind lawful.equality fun e => law.extend lawful.logicalOperand e)

theorem Lawful.assignmentRule (lawful : inner.Lawful law n) : law.holds n false true inner.assignmentRule := by
  refine law.bind lawful.logical fun target => law.accept ?_ (law.pure target)
  refine law.bind law.last fun equals => ?_
  cases target with
  | var name span => exact law.bind (law.behind lawful.assignment true) fun _ => law.pure _
  | _ => exact law.retort equals _ lawful.assignment

theorem Lawful.expressionStatement (lawful : inner.Lawful law n) :
    law.holds n false true inner.expressionStatement :=
  law.bind (lawful.expression _) fun _ => law.bind (law.expect _ (by decide)) fun _ => law.pure _

theorem Lawful.varRule (lawful : inner.Lawful law n) : law.holds n true true inner.varRule := by
  refine law.bind law.last fun start => law.bind (law.expect _ (by decide)) fun name => ?_
  refine law.chosen (b := true) (law.map (lawful.expression _) _) (law.pure none) fun initial => ?_
  exact law.bind (law.expect _ (by decide)) fun _ => law.bind (law.spanFrom _) fun _ => law.pure _

theorem Lawful.block (lawful : inner.Lawful law n) : law.holds n true true inner.block := by
  refine law.bind (law.many (fun s t same => ?_) (fun s empty => ?_) lawful.declaration) fun body =>
    law.bind (law.expect _ (by decide)) fun _ => law.pure _
  · simp only [State.sees,State.atEnd,same]
  · simp [State.atEnd,empty]

theorem Lawful.functionRule (lawful : inner.Lawful law n) : law.holds n true true inner.functionRule := by
  refine law.bind law.last fun start => law.bind (law.expect _ (by decide)) fun name => ?_
  refine law.bind (law.expect _ (by decide)) fun _ => ?_
  rw [choose_bind]
  have parameters : law.holds n true true (commaSeparated parameter) :=
    law.late (law.commaSeparated (law.bind (law.expect _ (by decide)) fun name => law.pure _))
  refine law.bind (law.seen (law.pure []) parameters) fun params => ?_
  exact law.bind (law.expect _ (by decide)) fun _ => law.bind (law.expect _ (by decide)) fun _ =>
    law.bind lawful.block fun body => law.bind (law.spanFrom _) fun _ => law.pure _

theorem Lawful.expressionUnless (lawful : inner.Lawful law n) (kind : Token.Kind) :
    law.holds n true true (inner.expressionUnless kind) :=
  law.seen (law.pure none) (law.map (lawful.expression _) some)

theorem Lawful.forStart (lawful : inner.Lawful law n) : law.holds n true true inner.forStart :=
  law.accept (law.pure none) (law.accept (law.map lawful.varRule some)
    (law.map (law.behind lawful.expressionStatement true) some))

theorem Lawful.forRule (lawful : inner.Lawful law n) : law.holds n true true inner.forRule := by
  refine law.bind law.last fun first => law.bind (law.expect _ (by decide)) fun _ => ?_
  refine law.bind lawful.forStart fun start => law.bind (lawful.expressionUnless _) fun test => ?_
  refine law.bind (law.expect _ (by decide)) fun semicolon => law.bind (lawful.expressionUnless _) fun step => ?_
  exact law.bind (law.expect _ (by decide)) fun _ => law.bind (law.behind lawful.statement true) fun body =>
    law.bind (law.spanFrom _) fun _ => law.pure _

theorem Lawful.ifRule (lawful : inner.Lawful law n) : law.holds n true true inner.ifRule := by
  have statement := law.behind lawful.statement true
  refine law.bind law.last fun start => law.bind (law.expect _ (by decide)) fun _ => ?_
  refine law.bind (lawful.expression _) fun test => law.bind (law.expect _ (by decide)) fun _ => ?_
  refine law.bind statement fun yes => law.chosen (b := true) (law.map statement some) (law.pure none) fun no => ?_
  exact law.bind (law.spanFrom _) fun _ => law.pure _

theorem Lawful.returnRule (lawful : inner.Lawful law n) : law.holds n true true inner.returnRule := by
  refine law.bind law.last fun start => law.bind (lawful.expressionUnless _) fun value => ?_
  exact law.bind (law.expect _ (by decide)) fun _ => law.bind (law.spanFrom _) fun _ => law.pure _

theorem Lawful.whileRule (lawful : inner.Lawful law n) : law.holds n true true inner.whileRule := by
  refine law.bind law.last fun start => law.bind (law.expect _ (by decide)) fun _ => ?_
  refine law.bind (lawful.expression _) fun test => law.bind (law.expect _ (by decide)) fun _ => ?_
  exact law.bind (law.behind lawful.statement true) fun body => law.bind (law.spanFrom _) fun _ => law.pure _

theorem Lawful.blockRule (lawful : inner.Lawful law n) : law.holds n true true inner.blockRule :=
  law.bind law.last fun _ => law.bind lawful.block fun _ => law.bind (law.spanFrom _) fun _ => law.pure _

theorem Lawful.statementRule (lawful : inner.Lawful law n) : law.holds n false true inner.statementRule :=
  law.accept lawful.forRule (law.accept lawful.ifRule (law.accept lawful.returnRule (law.accept lawful.whileRule
    (law.accept lawful.blockRule lawful.expressionStatement))))

theorem Lawful.declarationRule (lawful : inner.Lawful law n) : law.holds n false true inner.declarationRule :=
  law.accept lawful.functionRule (law.accept lawful.varRule lawful.statementRule)

/-- Every law holds at every nesting level, of the rules with as many levels below them. -/
theorem level_lawful (law : Law) : ∀ n, (level n).Lawful law n
  | 0 =>
    have lowest {α : Type} : law.holds 0 false true (nested (fail .nesting : Parser α)) := law.nested nofun fun _ => rfl
    ⟨lowest,lowest,lowest,lowest⟩
  | n + 1 =>
    have lawful := level_lawful law n
    have deeper {α : Type} {p : Parser α} (holds : law.holds n false true p) :
        law.holds (n + 1) false true (nested p) :=
      law.nested (fun _ same => Nat.succ.inj same ▸ holds) nofun
    ⟨deeper lawful.assignmentRule,deeper lawful.unaryRule,deeper lawful.declarationRule,deeper lawful.statementRule⟩

end Nested

end TurtleScript.Program
