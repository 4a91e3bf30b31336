import TurtleScript.Program
import TurtleScript.Token

/-!
The grammar of programs as a relation between tokens and trees. A phrase of a level is a phrase of a
tighter level or one that is built on that level (`Phrase`); operators of two operands have a phrase of
their own level on the left and one of the next tighter level on the right. Statements are told apart by
whether they end with an `if` that an `else` could still join (`Sentence`), so that an `else` has one
`if` only to belong to. Spans are left open: a tree is derived with any.
-/

namespace TurtleScript.Program

/-- The levels of expressions, from the loosest to the tightest. -/
inductive Level where
  | assignment | logical | equality | comparison | term | factor | unary | call | primary
deriving DecidableEq

namespace Level

def tighter : Level → Level
  | .assignment => .logical
  | .logical => .equality
  | .equality => .comparison
  | .comparison => .term
  | .term => .factor
  | .factor => .unary
  | .unary => .call
  | .call | .primary => .primary

def operator : Level → Token.Kind → Option BinaryOp
  | .equality, .eqEq => some .eq
  | .equality, .bangEq => some .ne
  | .comparison, .lt => some .lt
  | .comparison, .ltEq => some .le
  | .comparison, .gt => some .gt
  | .comparison, .gtEq => some .ge
  | .term, .plus => some .add
  | .term, .minus => some .sub
  | .factor, .star => some .mul
  | .factor, .slash => some .div
  | _, _ => none

end Level

def connective : Token.Kind → Option LogicalOp
  | .kwAnd => some .and
  | .kwOr => some .or
  | _ => none

def sign : Token.Kind → Option UnaryOp
  | .bang => some .not
  | .minus => some .neg
  | _ => none

def literal? (token : Token) : Option Literal :=
  match token.kind with
  | .kwTrue => some (.bool true)
  | .kwFalse => some (.bool false)
  | .kwNull => some .null
  | .number | .string =>
    match token.payload with
    | some (.number value) => some (.number value)
    | some (.text value) => some (.text value)
    | none => none
  | _ => none

/-- Texts with a comma between each and the next. -/
inductive Separated : List (List Token) → List Token → Prop where
  | none : Separated [] []
  | one (ts : List Token) : Separated [ts] ts
  | more {comma : Token} {next ts : List Token} {later : List (List Token)} (first : List Token)
      (isComma : comma.kind = .comma) (rest : Separated (next :: later) ts) :
      Separated (first :: next :: later) (first ++ comma :: ts)

/-- The tokens are an expression of the level, with the tree. -/
inductive Phrase : Level → List Token → Expr → Prop where
  | tighter (level : Level) {ts : List Token} {e : Expr} (inner : Phrase level.tighter ts e) :
      Phrase level ts e
  | assign {name equals : Token} {ts : List Token} {value : Expr} {span : Span}
      (isName : name.kind = .identifier) (isEquals : equals.kind = .eq)
      (right : Phrase .assignment ts value) :
      Phrase .assignment (name :: equals :: ts) (.assign name.lexeme value span)
  | logical {ts us : List Token} {word : Token} {op : LogicalOp} {a b : Expr} {span : Span}
      (left : Phrase .logical ts a) (joins : connective word.kind = some op)
      (right : Phrase .equality us b) :
      Phrase .logical (ts ++ word :: us) (.logical op a b span)
  | binary {level : Level} {ts us : List Token} {mark : Token} {op : BinaryOp} {a b : Expr} {span : Span}
      (left : Phrase level ts a) (joins : level.operator mark.kind = some op)
      (right : Phrase level.tighter us b) :
      Phrase level (ts ++ mark :: us) (.binary op a b span)
  | unary {mark : Token} {ts : List Token} {op : UnaryOp} {e : Expr} {span : Span}
      (stands : sign mark.kind = some op) (operand : Phrase .unary ts e) :
      Phrase .unary (mark :: ts) (.unary op e span)
  | call {ts us : List Token} {opening closing : Token} {f : Expr} {args : List (List Token × Expr)}
      {span : Span} (callee : Phrase .call ts f) (opens : opening.kind = .leftParen)
      (each : ∀ arg ∈ args, Phrase .assignment arg.1 arg.2) (listed : Separated (args.map Prod.fst) us)
      (closes : closing.kind = .rightParen) :
      Phrase .call (ts ++ opening :: (us ++ [closing])) (.call f (args.map Prod.snd) span)
  | index {ts us : List Token} {opening closing : Token} {a b : Expr} {span : Span}
      (target : Phrase .call ts a) (opens : opening.kind = .leftBracket)
      (position : Phrase .assignment us b) (closes : closing.kind = .rightBracket) :
      Phrase .call (ts ++ opening :: (us ++ [closing])) (.index a b span)
  | literal {token : Token} {value : Literal} {span : Span} (stands : literal? token = some value) :
      Phrase .primary [token] (.literal value span)
  | var {token : Token} {span : Span} (isName : token.kind = .identifier) :
      Phrase .primary [token] (.var token.lexeme span)
  | group {opening closing : Token} {ts : List Token} {e : Expr} {span : Span}
      (opens : opening.kind = .leftParen) (content : Phrase .assignment ts e)
      (closes : closing.kind = .rightParen) :
      Phrase .primary (opening :: (ts ++ [closing])) (.grouping e span)
  | array {opening closing : Token} {us : List Token} {items : List (List Token × Expr)} {span : Span}
      (opens : opening.kind = .leftBracket) (each : ∀ item ∈ items, Phrase .assignment item.1 item.2)
      (listed : Separated (items.map Prod.fst) us) (closes : closing.kind = .rightBracket) :
      Phrase .primary (opening :: (us ++ [closing])) (.array (items.map Prod.snd) span)

/-- The tokens are an expression, or there are none. -/
inductive Optional : List Token → Option Expr → Prop where
  | missing : Optional [] none
  | given {ts : List Token} {e : Expr} (phrase : Phrase .assignment ts e) : Optional ts (some e)

/-- The tokens declare a variable. -/
inductive Variable : List Token → Stmt → Prop where
  | unset {word name semicolon : Token} {place span : Span} (isVar : word.kind = .kwVar)
      (isName : name.kind = .identifier) (ends : semicolon.kind = .semicolon) :
      Variable [word,name,semicolon] (.var ⟨name.lexeme,place⟩ none span)
  | set {word name equals semicolon : Token} {ts : List Token} {e : Expr} {place span : Span}
      (isVar : word.kind = .kwVar) (isName : name.kind = .identifier) (isEquals : equals.kind = .eq)
      (initial : Phrase .assignment ts e) (ends : semicolon.kind = .semicolon) :
      Variable (word :: name :: equals :: (ts ++ [semicolon])) (.var ⟨name.lexeme,place⟩ (some e) span)

/-- The tokens are an expression and its semicolon. -/
inductive Effect : List Token → Stmt → Prop where
  | mk {ts : List Token} {semicolon : Token} {e : Expr} {span : Span} (phrase : Phrase .assignment ts e)
      (ends : semicolon.kind = .semicolon) : Effect (ts ++ [semicolon]) (.expression e span)

/-! ### The tree of a `for` loop: `for (start; test; step) body` is `{ start; while (test) { body; step; } }` -/

/-- The tokens are the start of a `for` loop. -/
inductive ForStart : List Token → Option Stmt → Prop where
  | missing {semicolon : Token} (ends : semicolon.kind = .semicolon) : ForStart [semicolon] none
  | declared {ts : List Token} {s : Stmt} (declared : Variable ts s) : ForStart ts (some s)
  | effect {ts : List Token} {s : Stmt} (effect : Effect ts s) : ForStart ts (some s)

/-- The test of a `for` loop; a missing one is true. -/
inductive ForTest : Option Expr → Expr → Prop where
  | missing (span : Span) : ForTest none (.literal (.bool true) span)
  | given (e : Expr) : ForTest (some e) e

/-- What is done in each round of a `for` loop. -/
inductive ForRound (body : Stmt) : Option Expr → Stmt → Prop where
  | missing : ForRound body none body
  | given (step : Expr) (place span : Span) :
      ForRound body (some step) (.block [body,.expression step place] span)

/-- A loop behind its start. -/
inductive ForBlock (loop : Stmt) : Option Stmt → Stmt → Prop where
  | missing : ForBlock loop none loop
  | given (start : Stmt) (span : Span) : ForBlock loop (some start) (.block [start,loop] span)

/-- What a list of tokens can be derived as. -/
inductive Form where
  | declaration
  /-- A statement; a dangling one ends with an `if` that has no `else`. -/
  | statement (dangling : Bool)

/-- The tokens are a declaration or statement, with the tree. -/
inductive Sentence : Form → List Token → Stmt → Prop where
  | function {word name opening closing brace close : Token} {params : List Token} {us : List Token}
      {names : List Name} {body : List (List Token × Stmt)} {place span : Span}
      (isFunction : word.kind = .kwFunction) (isName : name.kind = .identifier)
      (opens : opening.kind = .leftParen) (named : ∀ param ∈ params, param.kind = .identifier)
      (listed : Separated (params.map fun param => [param]) us)
      (same : names.map Name.text = params.map Token.lexeme) (closes : closing.kind = .rightParen)
      (begins : brace.kind = .leftBrace) (each : ∀ item ∈ body, Sentence .declaration item.1 item.2)
      (ends : close.kind = .rightBrace) :
      Sentence .declaration
        (word :: name :: opening :: (us ++ closing :: brace :: ((body.map Prod.fst).flatten ++ [close])))
        (.function ⟨name.lexeme,place⟩ names (body.map Prod.snd) span)
  | var {ts : List Token} {s : Stmt} (declared : Variable ts s) : Sentence .declaration ts s
  | statement {dangling : Bool} {ts : List Token} {s : Stmt} (inner : Sentence (.statement dangling) ts s) :
      Sentence .declaration ts s
  | effect {ts : List Token} {s : Stmt} (effect : Effect ts s) : Sentence (.statement false) ts s
  | giveBack {word semicolon : Token} {ts : List Token} {e : Option Expr} {span : Span}
      (isReturn : word.kind = .kwReturn) (value : Optional ts e) (ends : semicolon.kind = .semicolon) :
      Sentence (.statement false) (word :: (ts ++ [semicolon])) (.giveBack e span)
  | block {brace close : Token} {body : List (List Token × Stmt)} {span : Span}
      (begins : brace.kind = .leftBrace) (each : ∀ item ∈ body, Sentence .declaration item.1 item.2)
      (ends : close.kind = .rightBrace) :
      Sentence (.statement false) (brace :: ((body.map Prod.fst).flatten ++ [close]))
        (.block (body.map Prod.snd) span)
  | loop {word opening closing : Token} {ts us : List Token} {test : Expr} {body : Stmt} {dangling : Bool}
      {span : Span} (isWhile : word.kind = .kwWhile) (opens : opening.kind = .leftParen)
      (tested : Phrase .assignment ts test) (closes : closing.kind = .rightParen)
      (repeated : Sentence (.statement dangling) us body) :
      Sentence (.statement dangling) (word :: opening :: (ts ++ closing :: us)) (.loop test body span)
  | forLoop {word opening semicolon closing : Token} {starts tests steps us : List Token}
      {start : Option Stmt} {test step : Option Expr} {condition : Expr} {body round tree : Stmt}
      {dangling : Bool} {span : Span} (isFor : word.kind = .kwFor) (opens : opening.kind = .leftParen)
      (started : ForStart starts start) (tested : Optional tests test)
      (divides : semicolon.kind = .semicolon) (stepped : Optional steps step)
      (closes : closing.kind = .rightParen) (repeated : Sentence (.statement dangling) us body)
      (isCondition : ForTest test condition) (isRound : ForRound body step round)
      (isTree : ForBlock (.loop condition round span) start tree) :
      Sentence (.statement dangling)
        (word :: opening :: (starts ++ (tests ++ semicolon :: (steps ++ closing :: us)))) tree
  | ifOnly {word opening closing : Token} {ts us : List Token} {test : Expr} {yes : Stmt} {dangling : Bool}
      {span : Span} (isIf : word.kind = .kwIf) (opens : opening.kind = .leftParen)
      (tested : Phrase .assignment ts test) (closes : closing.kind = .rightParen)
      (done : Sentence (.statement dangling) us yes) :
      Sentence (.statement true) (word :: opening :: (ts ++ closing :: us)) (.branch test yes none span)
  | ifElse {word opening closing other : Token} {ts us vs : List Token} {test : Expr} {yes no : Stmt}
      {dangling : Bool} {span : Span} (isIf : word.kind = .kwIf) (opens : opening.kind = .leftParen)
      (tested : Phrase .assignment ts test) (closes : closing.kind = .rightParen)
      (done : Sentence (.statement false) us yes) (isElse : other.kind = .kwElse)
      (otherwise : Sentence (.statement dangling) vs no) :
      Sentence (.statement dangling) (word :: opening :: (ts ++ closing :: (us ++ other :: vs)))
        (.branch test yes (some no) span)

/-- The tokens are the declarations of a program, one behind the other. -/
def Derives (ts : List Token) (program : Program) : Prop :=
  ∃ items : List (List Token × Stmt), (∀ item ∈ items, Sentence .declaration item.1 item.2) ∧
    ts = (items.map Prod.fst).flatten ∧ program.statements = items.map Prod.snd

end TurtleScript.Program

namespace TurtleScript

mutual

/-- The expression with nothing said about where it was read from. -/
def Expr.bare : Expr → Expr
  | .assign name value _ => .assign name value.bare default
  | .binary op left right _ => .binary op left.bare right.bare default
  | .call callee args _ => .call callee.bare (Expr.bareAll args) default
  | .grouping inner _ => .grouping inner.bare default
  | .literal value _ => .literal value default
  | .logical op left right _ => .logical op left.bare right.bare default
  | .unary op operand _ => .unary op operand.bare default
  | .var name _ => .var name default
  | .array items _ => .array (Expr.bareAll items) default
  | .index target position _ => .index target.bare position.bare default

/-- Expressions with nothing said about where they were read from. -/
def Expr.bareAll : List Expr → List Expr
  | [] => []
  | e :: es => e.bare :: Expr.bareAll es

end

mutual

/-- The statement with nothing said about where it was read from. -/
def Stmt.bare : Stmt → Stmt
  | .block body _ => .block (Stmt.bareAll body) default
  | .expression value _ => .expression value.bare default
  | .function name params body _ =>
    .function ⟨name.text,default⟩ (params.map fun param => ⟨param.text,default⟩) (Stmt.bareAll body) default
  | .branch test yes no _ => .branch test.bare yes.bare (Stmt.bareOption no) default
  | .giveBack value _ => .giveBack (value.map Expr.bare) default
  | .var name initial _ => .var ⟨name.text,default⟩ (initial.map Expr.bare) default
  | .loop test body _ => .loop test.bare body.bare default

/-- A branch that may be missing, with nothing said about where it was read from. -/
def Stmt.bareOption : Option Stmt → Option Stmt
  | some stmt => some stmt.bare
  | none => none

/-- Statements with nothing said about where they were read from. -/
def Stmt.bareAll : List Stmt → List Stmt
  | [] => []
  | s :: ss => s.bare :: Stmt.bareAll ss

end

/-- The program with nothing said about where it was read from. -/
def Program.bare (program : Program) : Program := ⟨Stmt.bareAll program.statements⟩

theorem Expr.bareAll_eq_map : ∀ es : List Expr, Expr.bareAll es = es.map Expr.bare
  | [] => rfl
  | e :: es => by rw [Expr.bareAll,Expr.bareAll_eq_map es,List.map_cons]

theorem Stmt.bareAll_eq_map : ∀ ss : List Stmt, Stmt.bareAll ss = ss.map Stmt.bare
  | [] => rfl
  | s :: ss => by rw [Stmt.bareAll,Stmt.bareAll_eq_map ss,List.map_cons]

end TurtleScript
