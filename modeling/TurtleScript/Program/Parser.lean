import TurtleScript.Token
import TurtleScript.Diagnostic
import TurtleScript.Program.Complaint

/-!
The state of a parse and the steps on it. A parser either produces a value or gives up after a
complaint; the state goes on in both cases, so that parsing can pick up again behind the faulty
statement. How deeply statements and expressions nest is counted, and the count is capped.
-/

namespace TurtleScript.Program

/-- The deepest nesting of statements and expressions that is accepted. -/
def maxNesting : Nat := 256

/-- Where a parse stands. -/
structure State where
  /-- The tokens not yet consumed, up to the end of the text. -/
  rest : List Token
  /-- The token that marks the end of the text. -/
  final : Token
  /-- The token consumed last. -/
  last : Token
  /-- How deeply the place is nested. -/
  depth : Nat := 0
  /-- Whether the cap on nesting was hit; nothing is parsed after that. -/
  tooDeep : Bool := false
  /-- The problems found so far, in the order in which they were found. -/
  problems : List Diagnostic := []

namespace State

/-- The end of a token list that does not mark its own: just behind the last token. -/
def finalOf (tokens : List Token) : Token :=
  match tokens.getLast? with
  | some token => Token.endAt (.point token.span.stop (max token.span.line 1))
  | none => Token.endAt (.point 0 1)

/-- The start of a parse. Tokens from the first end mark on are never looked at. -/
def ofTokens (tokens : List Token) : State :=
  let final := (tokens.find? (·.kind = .endOfFile)).getD (finalOf tokens)
  { rest := tokens.takeWhile (·.kind ≠ .endOfFile), final := final, last := final }

def atEnd (s : State) : Bool := s.rest.isEmpty

/-- The next token, which at the end is the end mark. -/
def next (s : State) : Token := s.rest.headD s.final

/-- Whether the next token, short of the end, is of a kind. -/
def sees (s : State) (kind : Token.Kind) : Bool := s.rest.head?.any (·.kind = kind)

/-- The state behind the next token; at the end nothing changes. -/
def advance (s : State) : State :=
  match s.rest with
  | [] => s
  | token :: rest => { s with rest := rest, last := token }

def complain (s : State) (token : Token) (complaint : Complaint) : State :=
  let lexeme := if token.kind = .endOfFile then "" else token.lexeme
  { s with problems := s.problems ++ [.parse complaint.message lexeme token.span] }

/-- Skips tokens up to a boundary between statements: behind a semicolon, or in front of a token
that starts a statement. -/
def skipFrom (last : Token) : List Token → Token × List Token
  | [] => (last, [])
  | token :: rest =>
    if last.kind = .semicolon ∨ token.kind.startsStatement then (last, token :: rest)
    else skipFrom token rest

/-- The state at the next boundary between statements, at least one token on. -/
def recover (s : State) : State :=
  let s := s.advance
  let (last, rest) := skipFrom s.last s.rest
  { s with last := last, rest := rest }

end State

/-- A parser: a value, or nothing after a complaint, and the state behind it. -/
def Parser (α : Type) : Type := State → Option α × State

namespace Parser

def succeed {α : Type} (value : α) : Parser α := fun s => (some value, s)

/-- One parser after the other; the second runs only if the first produced a value. -/
def andThen {α β : Type} (p : Parser α) (f : α → Parser β) : Parser β := fun s =>
  match p s with
  | (some a, t) => f a t
  | (none, t) => (none, t)

instance : Monad Parser where
  pure := succeed
  bind := andThen

def look {α : Type} (f : State → α) : Parser α := fun s => (some (f s), s)

def change (f : State → State) : Parser Unit := fun s => (some (), f s)

/-- Gives up, with a complaint about the next token. -/
def fail {α : Type} (complaint : Complaint) : Parser α := fun s =>
  (none, s.complain s.next complaint)

def advance : Parser Unit := change State.advance

def sees (kind : Token.Kind) : Parser Bool := look (·.sees kind)

def last : Parser Token := look State.last

/-- Consumes the next token if it is of the kind, and says whether it was. -/
def accept (kind : Token.Kind) : Parser Bool := fun s =>
  if s.sees kind then (some true, s.advance) else (some false, s)

/-- Consumes a token of the kind, or gives up. -/
def expect (kind : Token.Kind) (complaint : Complaint) : Parser Token := fun s =>
  if s.sees kind then (some s.next, s.advance) else fail complaint s

/-- From the start of the given span to the end of the token consumed last. -/
def spanFrom (start : Span) : Parser Span := look fun s => start.join s.last.span

/-- One level deeper, or giving up for good at the cap. -/
def deepen : Parser Unit := fun s =>
  if maxNesting ≤ s.depth then fail .nesting { s with tooDeep := true }
  else (some (), { s with depth := s.depth + 1 })

/-- Runs a parser one level deeper. The level is back to what it was however the parser ends. -/
def nested {α : Type} (p : Parser α) : Parser α := fun s =>
  match deepen s with
  | (some _, t) =>
    let (result, u) := p t
    (result, { u with depth := s.depth })
  | (none, t) => (none, t)

/-- Runs a parser that may deepen on its way. The level is back to what it was if the parser
produces a value. -/
def levelled {α : Type} (p : Parser α) : Parser α := fun s =>
  match p s with
  | (some a, t) => (some a, { t with depth := s.depth })
  | (none, t) => (none, t)

/-- Repeats a step as long as it extends the value, at most once for each of the tokens given. -/
def extendWithin {α : Type} (step : α → Parser (Option α)) : List Token → α → Parser α
  | [], a => pure a
  | _ :: bound, a => do
    match ← step a with
    | some b => extendWithin step bound b
    | none => pure a

/-- Repeats a step as long as it extends the value. Each extension consumes a token, so the tokens
left bound the number of steps. -/
def extend {α : Type} (step : α → Parser (Option α)) (a : α) : Parser α := fun s =>
  extendWithin step s.rest a s

/-- One item or more with commas between them, at most one more than there are tokens given. -/
def commaSeparatedWithin {α : Type} (item : Parser α) : List Token → Parser (List α)
  | [] => do return [← item]
  | _ :: bound => do
    let first ← item
    if ← accept .comma then return first :: (← commaSeparatedWithin item bound)
    else return [first]

/-- One item or more with commas between them. Each comma is a token, so the tokens left bound the
number of items. -/
def commaSeparated {α : Type} (item : Parser α) : Parser (List α) := fun s =>
  commaSeparatedWithin item s.rest s

/-- Items up to a stop, at most one for each of the tokens given. A faulty item is left out and
parsing goes on at the next boundary between statements, unless the cap on nesting was hit. -/
def manyWithin {α : Type} (stop : State → Bool) (item : Parser α) : List Token → Parser (List α)
  | [] => pure []
  | _ :: bound => fun s =>
    if stop s then (some [], s)
    else
      match item s with
      | (some a, t) => andThen (manyWithin stop item bound) (fun later => succeed (a :: later)) t
      | (none, t) => if t.tooDeep then (none, t) else manyWithin stop item bound t.recover

/-- Items up to a stop. Each round consumes a token, so the tokens left bound the rounds. -/
def many {α : Type} (stop : State → Bool) (item : Parser α) : Parser (List α) := fun s =>
  manyWithin stop item s.rest s

end Parser

end TurtleScript.Program
