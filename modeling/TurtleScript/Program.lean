import TurtleScript.Span
import TurtleScript.Decimal.Notation

/-!
Programs as trees. Every expression, statement and declared name knows the span of source text it
was read from. A `for` loop has no node of its own: it is a block around a `while`.
-/

namespace TurtleScript

/-- A value written in the source text. -/
inductive Literal where
  | number (value : Float)
  | text (value : String)
  | bool (value : Bool)
  | null
deriving Repr, BEq, Inhabited

/-- The literal as it is quoted in a message. -/
def Literal.shown : Literal → String
  | .number value => Decimal.plain value
  | .text value => s!"\"{value}\""
  | .bool value => if value then "true" else "false"
  | .null => "null"

/-- Operators that need both operands. -/
inductive BinaryOp where
  | add | sub | mul | div | eq | ne | lt | gt | le | ge
deriving Repr, DecidableEq, Inhabited

def BinaryOp.all : List BinaryOp := [.add, .sub, .mul, .div, .eq, .ne, .lt, .gt, .le, .ge]

def BinaryOp.text : BinaryOp → String
  | .add => "+"
  | .sub => "-"
  | .mul => "*"
  | .div => "/"
  | .eq => "=="
  | .ne => "!="
  | .lt => "<"
  | .gt => ">"
  | .le => "<="
  | .ge => ">="

/-- Operators that may be settled by their left operand. -/
inductive LogicalOp where
  | and | or
deriving Repr, DecidableEq, Inhabited

def LogicalOp.all : List LogicalOp := [.and, .or]

def LogicalOp.text : LogicalOp → String
  | .and => "and"
  | .or => "or"

/-- Operators in front of their operand. -/
inductive UnaryOp where
  | neg | not
deriving Repr, DecidableEq, Inhabited

def UnaryOp.all : List UnaryOp := [.neg, .not]

def UnaryOp.text : UnaryOp → String
  | .neg => "-"
  | .not => "!"

/-- A name where it is declared. -/
structure Name where
  text : String
  span : Span
deriving Repr, DecidableEq, Inhabited

inductive Expr where
  /-- A value for a name that is already bound. -/
  | assign (name : String) (value : Expr) (span : Span)
  | binary (op : BinaryOp) (left right : Expr) (span : Span)
  | call (callee : Expr) (args : List Expr) (span : Span)
  /-- An expression in parentheses. -/
  | grouping (inner : Expr) (span : Span)
  | literal (value : Literal) (span : Span)
  | logical (op : LogicalOp) (left right : Expr) (span : Span)
  | unary (op : UnaryOp) (operand : Expr) (span : Span)
  | var (name : String) (span : Span)
  | array (items : List Expr) (span : Span)
  | index (target index : Expr) (span : Span)
deriving Repr, Inhabited

namespace Expr

def span : Expr → Span
  | .assign _ _ span | .binary _ _ _ span | .call _ _ span | .grouping _ span | .literal _ span
  | .logical _ _ _ span | .unary _ _ span | .var _ span | .array _ span | .index _ _ span => span

/-- How an expression is named when it stands in for a function. -/
def shown : Expr → String
  | .var name _ => name
  | .grouping inner _ => inner.shown
  | .literal value _ => value.shown
  | .call callee _ _ => s!"{callee.shown}(...)"
  | .index target _ _ => s!"{target.shown}[...]"
  | _ => "expression"

end Expr

inductive Stmt where
  | block (body : List Stmt) (span : Span)
  /-- An expression evaluated for its effects. -/
  | expression (value : Expr) (span : Span)
  | function (name : Name) (params : List Name) (body : List Stmt) (span : Span)
  | branch (test : Expr) (yes : Stmt) (no : Option Stmt) (span : Span)
  | giveBack (value : Option Expr) (span : Span)
  | var (name : Name) (initial : Option Expr) (span : Span)
  | loop (test : Expr) (body : Stmt) (span : Span)
deriving Repr, Inhabited

namespace Stmt

def span : Stmt → Span
  | .block _ span | .expression _ span | .function _ _ _ span | .branch _ _ _ span
  | .giveBack _ span | .var _ _ span | .loop _ _ span => span

def label : Stmt → String
  | .block _ _ => "block"
  | .expression _ _ => "expression"
  | .function _ _ _ _ => "function"
  | .branch _ _ _ _ => "if"
  | .giveBack _ _ => "return"
  | .var _ _ _ => "var"
  | .loop _ _ _ => "while"

end Stmt

/-- A program: its statements in order. -/
structure Program where
  statements : List Stmt
deriving Repr, Inhabited

end TurtleScript
