import TurtleScript.Token
import TurtleScript.Diagnostic
import TurtleScript.Decimal.Reading

/-!
From a source text to its tokens. At each place the longest text that is a blank, a comment or a
token is cut off; a character at which none of them starts is reported alone, and a string that
never closes is reported up to the end of the text. Scanning goes on behind every problem, so all
of them are found at once.
-/

namespace TurtleScript.Token

/-- What a piece of the source text is. -/
inductive Piece where
  /-- Blanks and comments. -/
  | skipped
  | token (kind : Kind) (payload : Option Payload)
  /-- A string without its closing quote. -/
  | unterminated
  /-- A character at which nothing starts. -/
  | unexpected
deriving Repr, BEq

/-- A piece cut off behind its first character: the rest of its text, and what follows it. -/
structure Cut where
  piece : Piece
  tail : List Char
  rest : List Char
deriving Repr

def isBlank (c : Char) : Bool := c = ' ' || c = '\t' || c = '\r' || c = '\n'

/-- Letters are those of the English alphabet. -/
def isLetter (c : Char) : Bool := ('A' ≤ c && c ≤ 'Z') || ('a' ≤ c && c ≤ 'z')

def isDigit (c : Char) : Bool := '0' ≤ c && c ≤ '9'

/-- The characters of a name behind its first letter. -/
def isWordChar (c : Char) : Bool := isLetter c || isDigit c

/-- A fraction behind a number's whole part: a point that a digit follows, and all digits there. -/
def takeFraction : List Char → List Char × List Char
  | '.' :: d :: rest =>
    if isDigit d then ('.' :: d :: rest.takeWhile isDigit, rest.dropWhile isDigit)
    else ([], '.' :: d :: rest)
  | rest => ([], rest)

/-- A number that starts with the given digit. -/
def cutNumber (first : Char) (cs : List Char) : Cut :=
  let whole := cs.takeWhile isDigit
  let (fraction, rest) := takeFraction (cs.dropWhile isDigit)
  { piece := .token .number (some (.number (Decimal.ofDigits (first :: whole) (fraction.drop 1))))
    tail := whole ++ fraction
    rest := rest }

/-- A string, behind its opening quote. It may run over several lines. -/
def cutString (cs : List Char) : Cut :=
  let body := cs.takeWhile (· ≠ '"')
  match cs.dropWhile (· ≠ '"') with
  | quote :: rest =>
    { piece := .token .string (some (.text (String.ofList body))), tail := body ++ [quote], rest := rest }
  | [] => { piece := .unterminated, tail := body, rest := [] }

/-- A keyword or identifier that starts with the given letter. -/
def cutWord (first : Char) (cs : List Char) : Cut :=
  let word := cs.takeWhile isWordChar
  { piece := .token (Kind.ofWord (String.ofList (first :: word))) none
    tail := word
    rest := cs.dropWhile isWordChar }

/-- A mark that is longer by one when an equals sign follows it. -/
def cutMark (alone withEq : Kind) : List Char → Cut
  | '=' :: rest => ⟨.token withEq none, ['='], rest⟩
  | rest => ⟨.token alone none, [], rest⟩

/-- The marks of one character, apart from those that an equals sign can follow. -/
def markKind? : Char → Option Kind
  | '+' => some .plus
  | '-' => some .minus
  | '*' => some .star
  | '/' => some .slash
  | '(' => some .leftParen
  | ')' => some .rightParen
  | '\x7b' => some .leftBrace
  | '\x7d' => some .rightBrace
  | '[' => some .leftBracket
  | ']' => some .rightBracket
  | ',' => some .comma
  | '.' => some .dot
  | ';' => some .semicolon
  | _ => none

/-- Cuts off the piece that starts with the character `c`, of which `cs` follow. -/
def cut (c : Char) (cs : List Char) : Cut :=
  if isBlank c then ⟨.skipped, cs.takeWhile isBlank, cs.dropWhile isBlank⟩
  else if c = '#' then ⟨.skipped, cs.takeWhile (· ≠ '\n'), cs.dropWhile (· ≠ '\n')⟩
  else if isDigit c then cutNumber c cs
  else if isLetter c then cutWord c cs
  else if c = '"' then cutString cs
  else if c = '!' then cutMark .bang .bangEq cs
  else if c = '=' then cutMark .eq .eqEq cs
  else if c = '<' then cutMark .lt .ltEq cs
  else if c = '>' then cutMark .gt .gtEq cs
  else
    match markKind? c with
    | some kind => ⟨.token kind none, [], cs⟩
    | none => ⟨.unexpected, [], cs⟩

theorem takeFraction_append (cs : List Char) : (takeFraction cs).1 ++ (takeFraction cs).2 = cs := by
  unfold takeFraction
  split
  · split <;> simp [List.takeWhile_append_dropWhile]
  · simp

theorem cutMark_append (alone withEq : Kind) (cs : List Char) :
    (cutMark alone withEq cs).tail ++ (cutMark alone withEq cs).rest = cs := by
  unfold cutMark
  split <;> simp

theorem cutNumber_append (c : Char) (cs : List Char) :
    (cutNumber c cs).tail ++ (cutNumber c cs).rest = cs := by
  simp [cutNumber, takeFraction_append, List.takeWhile_append_dropWhile]

theorem cutString_append (cs : List Char) : (cutString cs).tail ++ (cutString cs).rest = cs := by
  have whole := List.takeWhile_append_dropWhile (p := (· ≠ '"')) (l := cs)
  unfold cutString
  split
  · rename_i quote rest found
    rw [found] at whole
    simpa using whole
  · rename_i found
    rw [found] at whole
    simpa using whole

/-- Nothing is lost: behind its first character, a text is the rest of the piece and what follows. -/
theorem cut_append (c : Char) (cs : List Char) : (cut c cs).tail ++ (cut c cs).rest = cs := by
  unfold cut
  repeat' split
  all_goals
    simp [cutNumber_append, cutString_append, cutMark_append, cutWord,
      List.takeWhile_append_dropWhile]

theorem cut_rest_length (c : Char) (cs : List Char) : (cut c cs).rest.length ≤ cs.length := by
  have whole := congrArg List.length (cut_append c cs)
  simp only [List.length_append] at whole
  omega

/-- A place in the source text: a byte offset and the line it is on. -/
structure Place where
  offset : Nat := 0
  line : Nat := 1
deriving Repr, DecidableEq

def Place.next (place : Place) (c : Char) : Place :=
  { offset := place.offset + c.utf8Size, line := place.line + if c = '\n' then 1 else 0 }

def Place.after (place : Place) (text : List Char) : Place := text.foldl Place.next place

/-- What a piece contributes to the result. -/
inductive Item where
  | token (token : Token)
  | problem (problem : Diagnostic)
deriving Repr

/-- The item for a piece with the given text and place, if it is one. -/
def Item.ofPiece? (piece : Piece) (text : List Char) (span : Span) : Option Item :=
  match piece with
  | .skipped => none
  | .token kind payload => some (.token ⟨kind, String.ofList text, payload, span⟩)
  | .unterminated => some (.problem (.scan "Unterminated string." span))
  | .unexpected => some (.problem (.scan s!"Unexpected character '{String.ofList text}'." span))

/-- The items of a text in order, and the place behind it. -/
def items (place : Place) : List Char → List Item × Place
  | [] => ([], place)
  | c :: cs =>
    let found := cut c cs
    let after := place.after (c :: found.tail)
    let item := Item.ofPiece? found.piece (c :: found.tail) ⟨place.offset, after.offset, place.line⟩
    let (later, last) := items after found.rest
    (item.toList ++ later, last)
termination_by cs => cs.length
decreasing_by
  have shorter := cut_rest_length c cs
  simp only [List.length_cons]
  omega

def Item.token? : Item → Option Token
  | .token t => some t
  | .problem _ => none

def Item.problem? : Item → Option Diagnostic
  | .token _ => none
  | .problem d => some d

/-- The result of scanning: all tokens, the last of which marks the end, and all problems. -/
structure Scan where
  tokens : List Token
  problems : List Diagnostic
deriving Repr

def scan (source : String) : Scan :=
  let (found, last) := items {} source.toList
  { tokens := found.filterMap Item.token? ++ [Token.endAt (.point last.offset last.line)]
    problems := found.filterMap Item.problem? }

end TurtleScript.Token
