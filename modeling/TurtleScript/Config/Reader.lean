import TurtleScript.Config
import TurtleScript.Config.Number

/-!
Settings files. A file holds a line for each setting that differs from its default, its name and a
number with an equals sign between them; blanks, empty lines and comments are free. No setting may
be given twice, and nothing else may stand in the file.
-/

namespace TurtleScript.Config

def isSpace (c : Char) : Bool := c = ' ' || c = '\t'

/-- Characters that may stand in a comment or in quotes. -/
def isPlain (c : Char) : Bool := c = '\t' || (32 ≤ c.toNat && c.toNat ≠ 127)

def isNameChar (c : Char) : Bool := c.isAlphanum || c = '_' || c = '-'

/-- The character with a code point of the given digits, if there is one. -/
def scalar? (digits : List Char) : Option Char :=
  let n := valueIn 16 digits
  if digits.all isHexDigit ∧ n.isValidChar then some (Char.ofNat n) else none

/-- The rest of a name in double quotes, and what follows it. -/
def quotedName? : List Char → Option (List Char × List Char)
  | '"' :: rest => some ([], rest)
  | '\\' :: 'u' :: a :: b :: c :: d :: rest => do
    let char ← scalar? [a, b, c, d]
    let (name, rest) ← quotedName? rest
    return (char :: name, rest)
  | '\\' :: 'U' :: a :: b :: c :: d :: e :: f :: g :: h :: rest => do
    let char ← scalar? [a, b, c, d, e, f, g, h]
    let (name, rest) ← quotedName? rest
    return (char :: name, rest)
  | '\\' :: mark :: rest => do
    let char ← [('b', '\x08'), ('t', '\t'), ('n', '\n'), ('f', '\x0c'), ('r', '\r'), ('"', '"'),
      ('\\', '\\')].lookup mark
    let (name, rest) ← quotedName? rest
    return (char :: name, rest)
  | c :: rest =>
    if isPlain c then do
      let (name, rest) ← quotedName? rest
      return (c :: name, rest)
    else none
  | [] => none

/-- The mark around a name that is taken as it stands. -/
def apostrophe : Char := Char.ofNat 39

/-- A name as it stands between apostrophes, and what follows it. -/
def verbatimName? (text : List Char) : Option (List Char × List Char) :=
  let name := text.takeWhile fun c => isPlain c && c ≠ apostrophe
  match text.dropWhile fun c => isPlain c && c ≠ apostrophe with
  | c :: rest => if c = apostrophe then some (name, rest) else none
  | [] => none

/-- The name of a setting at the start of a line, and what follows it. -/
def name? : List Char → Option (List Char × List Char)
  | '"' :: rest => quotedName? rest
  | c :: rest =>
    if c = apostrophe then verbatimName? rest
    else some ((c :: rest).takeWhile isNameChar, (c :: rest).dropWhile isNameChar)
  | [] => none

/-- Whether only blanks and a comment are left of a line. -/
def onlyComment (text : List Char) : Bool :=
  match text.dropWhile isSpace with
  | [] => true
  | '#' :: comment => comment.all isPlain
  | _ => false

def Number.toFloat : Number → Float
  | .integer n => Float.ofInt n
  | .real x => x

def Number.count? : Number → Option Nat
  | .integer n => if 0 ≤ n then some n.toNat else none
  | .real _ => none

/-- The settings with one of them changed, if there is one of that name that takes the number. -/
def set? (config : Config) (name : String) (value : Number) : Option Config :=
  match name with
  | "screen_width" => some { config with screenWidth := value.toFloat }
  | "screen_height" => some { config with screenHeight := value.toFloat }
  | "turtle_speed" => some { config with turtleSpeed := value.toFloat }
  | "max_loop_iterations" => value.count?.map fun n => { config with maxLoopIterations := n }
  | "max_call_depth" => value.count?.map fun n => { config with maxCallDepth := n }
  | _ => none

def setting? (line : List Char) : Option (String × Number) := do
  let (name, rest) ← name? line
  match rest.dropWhile isSpace with
  | '=' :: rest =>
    let rest := rest.dropWhile isSpace
    let ends (c : Char) : Bool := isSpace c || c = '#'
    let value ← number? (rest.takeWhile fun c => !ends c)
    if onlyComment (rest.dropWhile fun c => !ends c) then return (String.ofList name, value)
    else none
  | _ => none

/-- The lines of a text. A line ends with a line feed, in front of which there may be a carriage
return. -/
def linesOf : List Char → List (List Char)
  | [] => [[]]
  | '\r' :: '\n' :: rest => [] :: linesOf rest
  | '\n' :: rest => [] :: linesOf rest
  | c :: rest =>
    match linesOf rest with
    | line :: lines => (c :: line) :: lines
    | [] => [[c]]

/-- The settings after the lines given, of which those named were changed already. -/
def readLines? (config : Config) (given : List String) : List (List Char) → Option Config
  | [] => some config
  | line :: lines =>
    let line := line.dropWhile isSpace
    if onlyComment line then readLines? config given lines
    else do
      let (name, value) ← setting? line
      if given.contains name then none
      else readLines? (← config.set? name value) (name :: given) lines

/-- The mark of byte order that may stand at the start of a text. -/
def byteOrderMark : Char := Char.ofNat 0xFEFF

def ofText? (text : String) : Option Config :=
  let chars := text.toList
  let chars := if chars.head? = some byteOrderMark then chars.drop 1 else chars
  readLines? {} [] (linesOf chars)

end TurtleScript.Config
