import TurtleScript.Program
import TurtleScript.Program.Parser

/-!
The grammar of programs.

    program     = declaration*
    declaration = function | var | statement
    statement   = for | if | return | while | block | expression ";"
    expression  = identifier "=" expression | logical

An expression binds, from loosest to tightest, by `and` and `or` on one level, by equality, by
comparison, by sums, by products, by a sign or `!` in front, and by calls and indexing behind. All
levels of two operands group to the left. Each rule that calls itself does so one nesting level
deeper, through `Nested`.
-/

namespace TurtleScript.Program

open TurtleScript.Program.Parser

/-- The rules that other rules call one nesting level deeper. -/
structure Nested where
  assignment : Parser Expr
  unary : Parser Expr
  declaration : Parser Stmt
  statement : Parser Stmt

namespace Nested

variable (inner : Nested)

def expression : Parser Expr := nested inner.assignment

/-- Expressions with commas between them, up to and with the closing token. -/
def arguments (close : Token.Kind) (complaint : Complaint) : Parser (List Expr) := do
  let items ← if ← sees close then pure [] else commaSeparated inner.expression
  let _ ← expect close complaint
  return items

/-- The expression that a token stands for by itself. -/
def leaf? (token : Token) : Except Complaint Expr :=
  match token.kind with
  | .kwTrue => .ok (.literal (.bool true) token.span)
  | .kwFalse => .ok (.literal (.bool false) token.span)
  | .kwNull => .ok (.literal .null token.span)
  | .number | .string =>
    match token.payload with
    | some (.number value) => .ok (.literal (.number value) token.span)
    | some (.text value) => .ok (.literal (.text value) token.span)
    | none => .error .literal
  | .identifier => .ok (.var token.lexeme token.span)
  | _ => .error .expression

/-- A literal, a name, an expression in parentheses, or an array. -/
def primary : Parser Expr := do
  let token ← look State.next
  match token.kind with
  | .leftParen =>
    advance
    let content ← inner.expression
    let _ ← expect .rightParen .groupClose
    return .grouping content (← spanFrom token.span)
  | .leftBracket =>
    advance
    let items ← inner.arguments .rightBracket .arrayClose
    return .array items (← spanFrom token.span)
  | _ =>
    match leaf? token with
    | .ok expr => advance; return expr
    | .error complaint => fail complaint

def suffixed (target : Expr) : Parser (Option Expr) := do
  if ← sees .leftParen then
    deepen
    advance
    let args ← inner.arguments .rightParen .argumentsClose
    return some (.call target args (← spanFrom target.span))
  else if ← sees .leftBracket then
    deepen
    advance
    let index ← inner.expression
    let _ ← expect .rightBracket .indexClose
    return some (.index target index (← spanFrom target.span))
  else return none

/-- An expression with calls and indexes behind it. -/
def call : Parser Expr := levelled do extend inner.suffixed (← inner.primary)

/-- The operator that a token is in front of its operand. -/
def unaryOp? : Token.Kind → Option UnaryOp
  | .bang => some .not
  | .minus => some .neg
  | _ => none

/-- An expression with operators in front of it. -/
def unaryRule : Parser Expr := do
  let token ← look State.next
  match unaryOp? token.kind with
  | some op =>
    advance
    let operand ← nested inner.unary
    return .unary op operand (token.span.join operand.span)
  | none => inner.call

/-- One more operand on a level of binary operators. -/
def operand (op? : Token.Kind → Option BinaryOp) (tighter : Parser Expr) (left : Expr) :
    Parser (Option Expr) := do
  let token ← look State.next
  match op? token.kind with
  | some op =>
    deepen
    advance
    let right ← tighter
    return some (.binary op left right (left.span.join right.span))
  | none => return none

/-- A level of binary operators that group to the left. -/
def binaryLevel (op? : Token.Kind → Option BinaryOp) (tighter : Parser Expr) : Parser Expr :=
  levelled do extend (operand op? tighter) (← tighter)

def factor : Parser Expr :=
  binaryLevel (fun | .star => some .mul | .slash => some .div | _ => none) inner.unaryRule

def term : Parser Expr :=
  binaryLevel (fun | .plus => some .add | .minus => some .sub | _ => none) inner.factor

def comparison : Parser Expr :=
  binaryLevel (fun | .lt => some .lt | .ltEq => some .le | .gt => some .gt | .gtEq => some .ge | _ => none)
    inner.term

def equality : Parser Expr :=
  binaryLevel (fun | .eqEq => some .eq | .bangEq => some .ne | _ => none) inner.comparison

def logicalOp? : Token.Kind → Option LogicalOp
  | .kwAnd => some .and
  | .kwOr => some .or
  | _ => none

/-- One more operand on the level of the logical operators. -/
def logicalOperand (left : Expr) : Parser (Option Expr) := do
  let token ← look State.next
  match logicalOp? token.kind with
  | some op =>
    advance
    deepen
    let right ← inner.equality
    return some (.logical op left right (left.span.join right.span))
  | none => return none

/-- Conjunctions and disjunctions, which bind equally and group to the left. -/
def logical : Parser Expr := levelled do extend inner.logicalOperand (← inner.equality)

/-- An assignment, or an expression of a tighter level. A target that is not a name is complained
about, and parsing goes on without the assignment. -/
def assignmentRule : Parser Expr := do
  let target ← inner.logical
  if ← accept .eq then
    let equals ← last
    let value ← nested inner.assignment
    match target with
    | .var name span => return .assign name value (span.join value.span)
    | other =>
      change (·.complain equals .target)
      return other
  else return target

def expressionStatement : Parser Stmt := do
  let value ← inner.expression
  let semicolon ← expect .semicolon .expressionEnd
  return .expression value (value.span.join semicolon.span)

/-- A variable declaration, behind its first word. -/
def varRule : Parser Stmt := do
  let start ← last
  let name ← expect .identifier .variableName
  let initial ← if ← accept .eq then some <$> inner.expression else pure none
  let _ ← expect .semicolon .variableEnd
  return .var ⟨name.lexeme, name.span⟩ initial (← spanFrom start.span)

/-- The statements of a block behind its opening brace, up to and with the closing one. -/
def block : Parser (List Stmt) := do
  let body ← many (fun s => s.sees .rightBrace || s.atEnd) (nested inner.declaration)
  let _ ← expect .rightBrace .blockClose
  return body

def parameter : Parser Name := do
  let name ← expect .identifier .parameterName
  return ⟨name.lexeme, name.span⟩

/-- A function declaration, behind its first word. -/
def functionRule : Parser Stmt := do
  let start ← last
  let name ← expect .identifier .functionName
  let _ ← expect .leftParen .functionOpen
  let params ← if ← sees .rightParen then pure [] else commaSeparated parameter
  let _ ← expect .rightParen .parametersClose
  let _ ← expect .leftBrace .bodyOpen
  let body ← inner.block
  return .function ⟨name.lexeme, name.span⟩ params body (← spanFrom start.span)

/-- An expression, unless a token of the kind comes at once. -/
def expressionUnless (kind : Token.Kind) : Parser (Option Expr) := do
  if ← sees kind then return none else some <$> inner.expression

/-- The tree of a `for` loop: a `while` whose body ends with the step, in a block of its own behind
the start. A missing condition is true, at the place of the semicolon behind it. -/
def forTree (start : Option Stmt) (test : Option Expr) (semicolon : Span) (step : Option Expr)
    (body : Stmt) (span : Span) : Stmt :=
  let round :=
    match step with
    | some step => .block [body, .expression step step.span] span
    | none => body
  let loop := Stmt.loop (test.getD (.literal (.bool true) semicolon)) round span
  match start with
  | some start => .block [start, loop] span
  | none => loop

/-- The start of a `for` loop, with its semicolon. -/
def forStart : Parser (Option Stmt) := do
  if ← accept .semicolon then return none
  else if ← accept .kwVar then some <$> inner.varRule
  else some <$> inner.expressionStatement

def forRule : Parser Stmt := do
  let first ← last
  let _ ← expect .leftParen .forOpen
  let start ← inner.forStart
  let test ← inner.expressionUnless .semicolon
  let semicolon ← expect .semicolon .conditionEnd
  let step ← inner.expressionUnless .rightParen
  let _ ← expect .rightParen .forClose
  let body ← nested inner.statement
  return forTree start test semicolon.span step body (← spanFrom first.span)

/-- An `if`, behind its first word. An `else` belongs to the nearest one. -/
def ifRule : Parser Stmt := do
  let start ← last
  let _ ← expect .leftParen .ifOpen
  let test ← inner.expression
  let _ ← expect .rightParen .ifClose
  let yes ← nested inner.statement
  let no ← if ← accept .kwElse then some <$> nested inner.statement else pure none
  return .branch test yes no (← spanFrom start.span)

def returnRule : Parser Stmt := do
  let start ← last
  let value ← inner.expressionUnless .semicolon
  let _ ← expect .semicolon .returnEnd
  return .giveBack value (← spanFrom start.span)

def whileRule : Parser Stmt := do
  let start ← last
  let _ ← expect .leftParen .whileOpen
  let test ← inner.expression
  let _ ← expect .rightParen .whileClose
  let body ← nested inner.statement
  return .loop test body (← spanFrom start.span)

/-- A block as a statement, behind its opening brace. -/
def blockRule : Parser Stmt := do
  let start ← last
  let body ← inner.block
  return .block body (← spanFrom start.span)

def statementRule : Parser Stmt := do
  if ← accept .kwFor then inner.forRule
  else if ← accept .kwIf then inner.ifRule
  else if ← accept .kwReturn then inner.returnRule
  else if ← accept .kwWhile then inner.whileRule
  else if ← accept .leftBrace then inner.blockRule
  else inner.expressionStatement

def declarationRule : Parser Stmt := do
  if ← accept .kwFunction then inner.functionRule
  else if ← accept .kwVar then inner.varRule
  else inner.statementRule

end Nested

/-- The rules with `n` nesting levels below them. Without any, nothing can be nested. -/
def Nested.level : Nat → Nested
  | 0 => ⟨fail .nesting, fail .nesting, fail .nesting, fail .nesting⟩
  | n + 1 =>
    let inner := level n
    ⟨inner.assignmentRule, inner.unaryRule, inner.declarationRule, inner.statementRule⟩

/-- A declaration at the top of a program. The nesting counter allows `maxNesting` levels, so the
rules never run out of levels before it does. -/
def declaration : Parser Stmt := nested (Nested.level maxNesting).declaration

/-- The program that a list of tokens is, or everything that is wrong with it in the order in
which it was found. -/
def ofTokens (tokens : List Token) : Except (List Diagnostic) Program :=
  let (statements, s) := many State.atEnd declaration (State.ofTokens tokens)
  match statements, s.problems with
  | some statements, [] => .ok ⟨statements⟩
  | _, problems => .error problems

end TurtleScript.Program
