import TurtleScript.Document
import TurtleScript.Program

/-!
Programs as JSON documents. Every node is an object with the node and its span, and a node names
its sort.
-/

namespace TurtleScript

open Document (ofOption)

def Span.outline (s : Span) : Document :=
  .object [("start", .natural s.start), ("end", .natural s.stop), ("line", .natural s.line)]

def Document.placed (node : Document) (span : Span) : Document :=
  .object [("node", node), ("span", span.outline)]

def Document.tagged (tag : String) (content : Document) : Document := .object [(tag, content)]

def Name.outline (name : Name) : Document := .placed (.text name.text) name.span

def Literal.outline : Literal → Document
  | .number value => .tagged "Number" (.number value)
  | .text value => .tagged "Str" (.text value)
  | .bool value => .tagged "Bool" (.bool value)
  | .null => .text "Null"

/-- The name of a binary operator in a document. -/
def BinaryOp.label : BinaryOp → String
  | .add => "Add"
  | .sub => "Sub"
  | .mul => "Mul"
  | .div => "Div"
  | .eq => "Eq"
  | .ne => "Ne"
  | .lt => "Lt"
  | .gt => "Gt"
  | .le => "Le"
  | .ge => "Ge"

/-- The name of a logical operator in a document. -/
def LogicalOp.label : LogicalOp → String
  | .and => "And"
  | .or => "Or"

/-- The name of a unary operator in a document. -/
def UnaryOp.label : UnaryOp → String
  | .neg => "Neg"
  | .not => "Not"

mutual

def Expr.outline : Expr → Document
  | .assign name value span =>
    .placed (.tagged "Assign" (.object [("name", .text name), ("value", value.outline)])) span
  | .binary op left right span =>
    .placed (.tagged "Binary" (.object
      [("left", left.outline), ("op", .text op.label), ("right", right.outline)])) span
  | .call callee args span =>
    .placed (.tagged "Call" (.object
      [("callee", callee.outline), ("args", .list (Expr.outlines args))])) span
  | .grouping inner span => .placed (.tagged "Grouping" inner.outline) span
  | .literal value span => .placed (.tagged "Literal" value.outline) span
  | .logical op left right span =>
    .placed (.tagged "Logical" (.object
      [("left", left.outline), ("op", .text op.label), ("right", right.outline)])) span
  | .unary op operand span =>
    .placed (.tagged "Unary" (.object [("op", .text op.label), ("expr", operand.outline)])) span
  | .var name span => .placed (.tagged "Var" (.text name)) span
  | .array items span => .placed (.tagged "Array" (.list (Expr.outlines items))) span
  | .index target position span =>
    .placed (.tagged "Index" (.object
      [("target", target.outline), ("index", position.outline)])) span

def Expr.outlines : List Expr → List Document
  | [] => []
  | expr :: exprs => expr.outline :: Expr.outlines exprs

end

mutual

def Stmt.outline : Stmt → Document
  | .block body span => .placed (.tagged "Block" (.list (Stmt.outlines body))) span
  | .expression value span => .placed (.tagged "Expression" value.outline) span
  | .function name params body span =>
    .placed (.tagged "Function" (.object
      [("name", name.outline), ("params", .list (params.map Name.outline)),
       ("body", .list (Stmt.outlines body))])) span
  | .branch test yes no span =>
    .placed (.tagged "If" (.object
      [("cond", test.outline), ("then_branch", yes.outline),
       ("else_branch", Stmt.outlineOption no)])) span
  | .giveBack value span => .placed (.tagged "Return" (ofOption Expr.outline value)) span
  | .var name initial span =>
    .placed (.tagged "Var" (.object
      [("name", name.outline), ("initializer", ofOption Expr.outline initial)])) span
  | .loop test body span =>
    .placed (.tagged "While" (.object [("cond", test.outline), ("body", body.outline)])) span

/-- A branch that may be missing as a document. -/
def Stmt.outlineOption : Option Stmt → Document
  | some stmt => stmt.outline
  | none => .null

def Stmt.outlines : List Stmt → List Document
  | [] => []
  | stmt :: stmts => stmt.outline :: Stmt.outlines stmts

end

def Program.outline (program : Program) : Document :=
  .object [("statements", .list (Stmt.outlines program.statements))]

end TurtleScript
