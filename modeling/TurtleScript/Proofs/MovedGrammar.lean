import TurtleScript.Program.Grammar
import TurtleScript.Proofs.Settings

/-!
The rules of the grammar in a setting. Each rule for expressions makes in a setting what it makes without one, as long
as what comes behind is hidden. A statement may also end with its text, if no `else` comes behind: that is the one
word that goes on a statement which could have ended (`Nested.level_moving`).
-/

namespace TurtleScript.Program

open Movable (move)
open TurtleScript.Program.Parser

variable {c : Setting}

/-- What comes behind the text goes on no statement. -/
def Setting.Free (c : Setting) : Prop := ¬ Begins .kwElse c.behind

namespace Parser

variable {α β : Type} [Movable α] [Movable β] {free : Prop} {eats : β → Prop} {s t : State}

theorem moves_last {g g' : Token → Parser β} (rest : ∀ token, Moves c free eats (g token) (g' (move c.shift token))) :
    Moves c free eats (do g (← last)) (do g' (← last)) :=
  moves_look (fun _ => rfl) rest

theorem moves_spanFrom {start start' : Span} {g g' : Span → Parser β} (same : start' = start.moved c.shift)
    (rest : ∀ span, Moves c free eats (g span) (g' (move c.shift span))) :
    Moves c free eats (do g (← spanFrom start)) (do g' (← spanFrom start')) := by
  refine moves_look (fun s => ?_) rest
  rw [same]
  exact (Span.join_moved c.shift start s.last.span).symm

theorem moves_none : Moves c free (fun next : Option α => next.isSome) (pure none) (pure none) := by
  intro s
  refine ⟨.refl s true,fun next made found => ?_,fun _ => rfl⟩
  cases made
  cases found

end Parser

/-- The rules that other rules call do in the setting what they do without one. -/
structure Nested.Moving (c : Setting) (inner : Nested) : Prop where
  assignment : Moves c False (fun _ => False) inner.assignment inner.assignment
  unary : Moves c False (fun _ => False) inner.unary inner.unary
  declaration : Moves c c.Free (fun _ => True) inner.declaration inner.declaration
  statement : Moves c c.Free (fun _ => True) inner.statement inner.statement

namespace Nested

variable {inner : Nested}

theorem Moving.expression (moving : inner.Moving c) :
    Moves c False (fun _ => False) inner.expression inner.expression :=
  moving.assignment.nested

theorem Moving.arguments (moving : inner.Moving c) (close : Token.Kind) (complaint : Complaint) :
    Moves c False (fun _ => False) (inner.arguments close complaint) (inner.arguments close complaint) := by
  refine moves_choose (moves_sees fun seen => ?_)
    (fun items => moves_expect fun _ => moves_pure rfl) False.elim
  cases seen with
  | false => exact moving.expression.commaSeparated
  | true => exact moves_pure rfl

theorem leaf_moved (d : Shift) (token : Token) : leaf? (token.moved d) = (leaf? token).map (Expr.moved d) := by
  unfold leaf?
  simp only [Token.moved]
  cases token.kind <;> try rfl
  all_goals
    cases token.payload with
    | none => rfl
    | some payload => cases payload <;> rfl

theorem Moving.primary (moving : inner.Moving c) : Moves c False (fun _ => False) inner.primary inner.primary := by
  refine moves_next fun token => ?_
  rw [show (move c.shift token).kind = token.kind from rfl]
  split
  · refine moves_advance (moving.expression.bind fun content => moves_expect fun _ => ?_)
    exact moves_spanFrom rfl fun span => moves_pure rfl
  · refine moves_advance ((moving.arguments _ _).bind fun items => moves_spanFrom rfl fun span => moves_pure ?_)
    exact congrArg (Expr.array · _) (Expr.movedAll_eq_map c.shift items).symm
  · rw [show leaf? (move c.shift token) = _ from leaf_moved c.shift token]
    cases leaf? token with
    | error complaint => exact moves_fail complaint
    | ok e => exact moves_advance (moves_pure rfl)

theorem Moving.suffixed (moving : inner.Moving c) (target : Expr) :
    Moves c False (fun next => next.isSome) (inner.suffixed target) (inner.suffixed (move c.shift target)) := by
  have start : (move c.shift target).span = target.span.moved c.shift := Expr.span_moved c.shift target
  refine moves_sees fun opens => ?_
  cases opens with
  | true =>
    refine moves_deepen (moves_advance ((moving.arguments _ _).bind fun args => ?_))
    refine moves_spanFrom start fun span => moves_pure ?_
    exact congrArg (fun args => some (Expr.call _ args _)) (Expr.movedAll_eq_map c.shift args).symm
  | false =>
    refine moves_sees fun opens => ?_
    cases opens with
    | true =>
      refine moves_deepen (moves_advance (moving.expression.bind fun index => moves_expect fun _ => ?_))
      exact moves_spanFrom start fun span => moves_pure rfl
    | false => exact moves_none

theorem Moving.call (moving : inner.Moving c) : Moves c False (fun _ => False) inner.call inner.call :=
  (moving.primary.bind fun e => moves_extend moving.suffixed e).levelled

theorem Moving.unaryRule (moving : inner.Moving c) : Moves c False (fun _ => False) inner.unaryRule inner.unaryRule := by
  refine moves_next fun token => ?_
  rw [show (move c.shift token).kind = token.kind from rfl]
  split
  · refine moves_advance (moving.unary.nested.bind fun operand => moves_pure ?_)
    have spans := Span.join_moved c.shift token.span operand.span
    rw [← Expr.span_moved] at spans
    exact congrArg (Expr.unary _ _) spans.symm
  · exact moving.call

theorem join_moved (d : Shift) (left right : Expr) :
    (left.moved d).span.join (right.moved d).span = (left.span.join right.span).moved d := by
  rw [Span.join_moved,Expr.span_moved,Expr.span_moved]

theorem operand_moves {op? : Token.Kind → Option BinaryOp} {tighter : Parser Expr}
    (moves : Moves c False (fun _ => False) tighter tighter) (left : Expr) :
    Moves c False (fun next => next.isSome) (operand op? tighter left) (operand op? tighter (move c.shift left)) := by
  refine moves_next fun token => ?_
  rw [show (move c.shift token).kind = token.kind from rfl]
  split
  · refine moves_deepen (moves_advance (moves.bind fun right => moves_pure ?_))
    exact congrArg (fun span => some (Expr.binary _ _ _ span)) (join_moved c.shift left right)
  · exact moves_none

theorem binaryLevel_moves {op? : Token.Kind → Option BinaryOp} {tighter : Parser Expr}
    (moves : Moves c False (fun _ => False) tighter tighter) :
    Moves c False (fun _ => False) (binaryLevel op? tighter) (binaryLevel op? tighter) :=
  (moves.bind fun e => moves_extend (operand_moves moves) e).levelled

theorem Moving.equality (moving : inner.Moving c) : Moves c False (fun _ => False) inner.equality inner.equality :=
  binaryLevel_moves (binaryLevel_moves (binaryLevel_moves (binaryLevel_moves moving.unaryRule)))

theorem Moving.logicalOperand (moving : inner.Moving c) (left : Expr) :
    Moves c False (fun next => next.isSome) (inner.logicalOperand left) (inner.logicalOperand (move c.shift left)) := by
  refine moves_next fun token => ?_
  rw [show (move c.shift token).kind = token.kind from rfl]
  split
  · refine moves_advance (moves_deepen (moving.equality.bind fun right => moves_pure ?_))
    exact congrArg (fun span => some (Expr.logical _ _ _ span)) (join_moved c.shift left right)
  · exact moves_none

theorem Moving.logical (moving : inner.Moving c) : Moves c False (fun _ => False) inner.logical inner.logical :=
  (moving.equality.bind fun e => moves_extend moving.logicalOperand e).levelled

theorem Moving.assignmentRule (moving : inner.Moving c) :
    Moves c False (fun _ => False) inner.assignmentRule inner.assignmentRule := by
  refine moving.logical.bind fun target => moves_accept ?_ (moves_pure rfl) False.elim
  refine moves_last fun equals => moving.assignment.nested.bind fun value => ?_
  cases target with
  | var name span =>
    refine moves_pure ?_
    have spans := Span.join_moved c.shift span value.span
    rw [← Expr.span_moved] at spans
    exact congrArg (Expr.assign _ _) spans.symm
  | _ => exact (moves_complain equals .target).bind fun _ => moves_pure rfl

/-! ### Statements -/

section
variable {eats : Stmt → Prop}

theorem Moving.expressionStatement (moving : inner.Moving c) :
    Moves c c.Free eats inner.expressionStatement inner.expressionStatement := by
  refine moving.expression.then (fun value => moves_expect fun semicolon => moves_pure ?_) fun _ => needs_expect
  have spans := Span.join_moved c.shift value.span semicolon.span
  rw [← Expr.span_moved] at spans
  exact congrArg (Stmt.expression _) spans.symm

theorem Moving.expressionStatement_needs (moving : inner.Moving c) : Needs inner.expressionStatement :=
  moving.expression.needs fun _ => needs_expect

theorem Moving.varRule (moving : inner.Moving c) : Moves c c.Free eats inner.varRule inner.varRule := by
  refine moves_last fun start => moves_expect fun name => ?_
  refine moves_choose (moves_accept ?_ (moves_pure rfl) False.elim) (fun initial => ?_)
    fun _ => .inr fun _ => needs_expect
  · exact moving.expression.map fun e => rfl
  · exact moves_expect fun _ => moves_spanFrom rfl fun span => moves_pure rfl

theorem Moving.block (moving : inner.Moving c) :
    Moves c c.Free (fun _ => True) inner.block inner.block := by
  refine Moves.then (moving.declaration.nested.inside.many fun s hidden => ?_)
    (fun body => moves_expect fun _ => moves_pure rfl) fun _ => needs_expect
  rw [sees_within hidden,atEnd_within hidden]

theorem parameter_moves : Moves c False (fun _ => False) parameter parameter :=
  moves_expect fun _ => moves_pure rfl

theorem Moving.functionRule (moving : inner.Moving c) :
    Moves c c.Free eats inner.functionRule inner.functionRule := by
  refine moves_last fun start => moves_expect fun name => moves_expect fun _ => ?_
  refine moves_choose (moves_sees fun seen => ?_) (fun params => ?_)
    fun _ => .inr fun _ => needs_expect
  · cases seen with
    | false => exact parameter_moves.commaSeparated
    | true => exact moves_pure rfl
  · refine moves_expect fun _ => moves_expect fun _ => moving.block.bind fun body => ?_
    refine moves_spanFrom rfl fun span => moves_pure ?_
    exact congrArg (Stmt.function _ _ · _) (Stmt.movedAll_eq_map c.shift body).symm

theorem Moving.expressionUnless (moving : inner.Moving c) (kind : Token.Kind) :
    Moves c False (fun _ => False) (inner.expressionUnless kind) (inner.expressionUnless kind) := by
  refine moves_sees fun seen => ?_
  cases seen with
  | false => exact moving.expression.map fun e => rfl
  | true => exact moves_pure rfl

theorem forTree_moved (d : Shift) (start : Option Stmt) (test : Option Expr) (semicolon : Span) (step : Option Expr)
    (body : Stmt) (span : Span) :
    forTree (start.map (Stmt.moved d)) (test.map (Expr.moved d)) (semicolon.moved d) (step.map (Expr.moved d))
      (body.moved d) (span.moved d) = (forTree start test semicolon step body span).moved d := by
  cases start <;> cases test <;> cases step <;>
    simp [forTree,Stmt.moved,Stmt.movedAll,Expr.moved,Expr.span_moved]

theorem Moving.forStart (moving : inner.Moving c) :
    Moves c False (fun _ => False) inner.forStart inner.forStart := by
  refine moves_accept (moves_pure rfl) (moves_accept ?_ ?_ False.elim) False.elim
  · have declared : Moves c c.Free (fun _ => False) inner.varRule inner.varRule := moving.varRule
    exact declared.inside.map fun s => rfl
  · have effect : Moves c c.Free (fun _ => False) inner.expressionStatement inner.expressionStatement :=
      moving.expressionStatement
    exact effect.inside.map fun s => rfl

theorem Moving.forRule (moving : inner.Moving c) : Moves c c.Free eats inner.forRule inner.forRule := by
  refine moves_last fun first => moves_expect fun _ => moving.forStart.then (fun start => ?_) fun start => ?_
  · refine (moving.expressionUnless _).then (fun test => moves_expect fun semicolon => ?_) fun _ => needs_expect
    refine (moving.expressionUnless _).then (fun step => moves_expect fun _ => ?_) fun _ => needs_expect
    refine moving.statement.nested.bind fun body => moves_spanFrom rfl fun span => moves_pure ?_
    exact forTree_moved c.shift start test semicolon.span step body span
  · exact (moving.expressionUnless _).needs fun _ => needs_expect

theorem Moving.ifRule (moving : inner.Moving c) : Moves c c.Free eats inner.ifRule inner.ifRule := by
  refine moves_last fun start => moves_expect fun _ => ?_
  refine moving.expression.then (fun test => moves_expect fun _ => ?_) fun _ => needs_expect
  refine moving.statement.nested.bind fun yes => ?_
  refine moves_choose (moves_accept ?_ (moves_pure rfl) .inr) (fun no => moves_spanFrom rfl fun span => moves_pure ?_)
    .inl
  · exact moving.statement.nested.map fun s => rfl
  · exact congrArg (Stmt.branch _ _ · _) (Stmt.movedOption_eq_map c.shift no).symm

theorem Moving.returnRule (moving : inner.Moving c) : Moves c c.Free eats inner.returnRule inner.returnRule := by
  refine moves_last fun start => ?_
  refine (moving.expressionUnless _).then (fun value => moves_expect fun _ => ?_) fun _ => needs_expect
  exact moves_spanFrom rfl fun span => moves_pure rfl

theorem Moving.whileRule (moving : inner.Moving c) : Moves c c.Free eats inner.whileRule inner.whileRule := by
  refine moves_last fun start => moves_expect fun _ => ?_
  refine moving.expression.then (fun test => moves_expect fun _ => ?_) fun _ => needs_expect
  exact moving.statement.nested.bind fun body => moves_spanFrom rfl fun span => moves_pure rfl

theorem Moving.blockRule (moving : inner.Moving c) :
    Moves c c.Free (fun _ => False) inner.blockRule inner.blockRule := by
  refine moves_last fun start => moving.block.bind fun body => moves_spanFrom rfl fun span => moves_pure ?_
  exact congrArg (Stmt.block · _) (Stmt.movedAll_eq_map c.shift body).symm

theorem Moving.statementRule_needs (moving : inner.Moving c) : Needs inner.statementRule :=
  needs_accept (needs_accept (needs_accept (needs_accept (needs_accept moving.expressionStatement_needs))))

theorem Moving.statementRule (moving : inner.Moving c) :
    Moves c c.Free eats inner.statementRule inner.statementRule := by
  have needs := moving.expressionStatement_needs
  refine moves_accept moving.forRule ?_ fun _ => .inl (needs_accept (needs_accept (needs_accept (needs_accept needs))))
  refine moves_accept moving.ifRule ?_ fun _ => .inl (needs_accept (needs_accept (needs_accept needs)))
  refine moves_accept moving.returnRule ?_ fun _ => .inl (needs_accept (needs_accept needs))
  refine moves_accept moving.whileRule ?_ fun _ => .inl (needs_accept needs)
  exact moves_accept moving.blockRule moving.expressionStatement fun _ => .inl needs

theorem Moving.declarationRule (moving : inner.Moving c) :
    Moves c c.Free eats inner.declarationRule inner.declarationRule := by
  have needs := moving.statementRule_needs
  refine moves_accept moving.functionRule ?_ fun _ => .inl (needs_accept needs)
  exact moves_accept moving.varRule moving.statementRule fun _ => .inl needs

end

/-- At every nesting level the rules do in a setting what they do without one. -/
theorem level_moving (c : Setting) : ∀ n, (Nested.level n).Moving c
  | 0 => ⟨moves_fail _,moves_fail _,moves_fail _,moves_fail _⟩
  | n + 1 =>
    have moving := level_moving c n
    ⟨moving.assignmentRule,moving.unaryRule,moving.declarationRule,moving.statementRule⟩

end Nested

theorem declaration_moves (c : Setting) : Moves c c.Free (fun _ => True) declaration declaration :=
  (Nested.level_moving c maxNesting).declaration.nested

end TurtleScript.Program
