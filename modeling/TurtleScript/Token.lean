import TurtleScript.Span
import TurtleScript.Decimal.Notation

/-!
Tokens: the words, marks and literals of a source text, each with the text it was read from and
its place. The kinds are listed in a fixed order, which is also the order of `Token.Kind.all`.
-/

namespace TurtleScript

namespace Token

/-- What sort of token it is. -/
inductive Kind where
  | kwAnd | kwElse | kwFalse | kwFunction | kwFor | kwIf | kwNull | kwOr | kwReturn | kwTrue | kwVar
  | kwWhile
  | number | string | identifier
  | bangEq | eqEq | ltEq | gtEq
  | bang | eq | lt | gt | plus | minus | star | slash
  | leftParen | rightParen | leftBrace | rightBrace | leftBracket | rightBracket
  | comma | dot | semicolon
  | endOfFile
deriving Repr, DecidableEq, Inhabited

namespace Kind

def all : List Kind :=
  [.kwAnd, .kwElse, .kwFalse, .kwFunction, .kwFor, .kwIf, .kwNull, .kwOr, .kwReturn, .kwTrue, .kwVar, .kwWhile,
   .number, .string, .identifier,
   .bangEq, .eqEq, .ltEq, .gtEq,
   .bang, .eq, .lt, .gt, .plus, .minus, .star, .slash,
   .leftParen, .rightParen, .leftBrace, .rightBrace, .leftBracket, .rightBracket,
   .comma, .dot, .semicolon,
   .endOfFile]

/-- The words that are reserved, with their kinds. -/
def keywords : List (String × Kind) :=
  [("and", .kwAnd), ("else", .kwElse), ("false", .kwFalse), ("function", .kwFunction), ("for", .kwFor),
   ("if", .kwIf), ("null", .kwNull), ("or", .kwOr), ("return", .kwReturn), ("true", .kwTrue),
   ("var", .kwVar), ("while", .kwWhile)]

/-- The kind of a word: its keyword's, or an identifier. -/
def ofWord (word : String) : Kind := (keywords.lookup word).getD .identifier

/-- Whether a statement or declaration can be recognised by this first token; recovery from an
error in a statement stops in front of one. -/
def startsStatement : Kind → Bool
  | .kwFunction | .kwVar | .kwFor | .kwIf | .kwWhile | .kwReturn => true
  | _ => false

/-- How the kind is written in a source text, or a description where its texts vary. -/
def text : Kind → String
  | .kwAnd => "and"
  | .kwElse => "else"
  | .kwFalse => "false"
  | .kwFunction => "function"
  | .kwFor => "for"
  | .kwIf => "if"
  | .kwNull => "null"
  | .kwOr => "or"
  | .kwReturn => "return"
  | .kwTrue => "true"
  | .kwVar => "var"
  | .kwWhile => "while"
  | .number => "number"
  | .string => "string"
  | .identifier => "identifier"
  | .bangEq => "!="
  | .eqEq => "=="
  | .ltEq => "<="
  | .gtEq => ">="
  | .bang => "!"
  | .eq => "="
  | .lt => "<"
  | .gt => ">"
  | .plus => "+"
  | .minus => "-"
  | .star => "*"
  | .slash => "/"
  | .leftParen => "("
  | .rightParen => ")"
  | .leftBrace => "\x7b"
  | .rightBrace => "\x7d"
  | .leftBracket => "["
  | .rightBracket => "]"
  | .comma => ","
  | .dot => "."
  | .semicolon => ";"
  | .endOfFile => "end of file"

/-- The short name of the kind in a listing of tokens. -/
def label : Kind → String
  | .kwAnd => "And"
  | .kwElse => "Else"
  | .kwFalse => "False"
  | .kwFunction => "Function"
  | .kwFor => "For"
  | .kwIf => "If"
  | .kwNull => "Null"
  | .kwOr => "Or"
  | .kwReturn => "Return"
  | .kwTrue => "True"
  | .kwVar => "Var"
  | .kwWhile => "While"
  | .number => "Number"
  | .string => "Str"
  | .identifier => "Ident"
  | .bangEq => "BangEq"
  | .eqEq => "EqEq"
  | .ltEq => "LtEq"
  | .gtEq => "GtEq"
  | .bang => "Bang"
  | .eq => "Eq"
  | .lt => "Lt"
  | .gt => "Gt"
  | .plus => "Plus"
  | .minus => "Minus"
  | .star => "Star"
  | .slash => "Slash"
  | .leftParen => "LParen"
  | .rightParen => "RParen"
  | .leftBrace => "LBrace"
  | .rightBrace => "RBrace"
  | .leftBracket => "LBracket"
  | .rightBracket => "RBracket"
  | .comma => "Comma"
  | .dot => "Dot"
  | .semicolon => "Semi"
  | .endOfFile => "Eof"

theorem mem_all (kind : Kind) : kind ∈ all := by
  cases kind <;> decide

end Kind

/-- The value carried by a number or string token. -/
inductive Payload where
  | number (value : Float)
  | text (value : String)
deriving Repr, BEq, Inhabited

/-- The value as it is shown in a listing: a number in its shortest form, a string as it stands. -/
def Payload.shown : Payload → String
  | .number value => Decimal.plain value
  | .text value => value

end Token

/-- A token of a source text. -/
structure Token where
  kind : Token.Kind
  /-- The text the token was read from. -/
  lexeme : String
  payload : Option Token.Payload := none
  span : Span
deriving Repr, BEq, Inhabited

namespace Token

/-- The token that stands past the last byte of a source text. -/
def endAt (place : Span) : Token := { kind := .endOfFile, lexeme := "", span := place }

/-- One token in a listing: kind, text and, if it carries one, its value. -/
def shown (token : Token) : String :=
  match token.payload with
  | some payload => s!"{token.kind.label} {token.lexeme} {payload.shown}"
  | none => s!"{token.kind.label} {token.lexeme}"

end Token

end TurtleScript
