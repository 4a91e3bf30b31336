import TurtleScript.Decimal.Reading
import TurtleScript.Word

/-!
Numbers in a settings file: integers in four bases, decimal fractions, and the words for infinity
and for an undefined number. An underscore may stand between two digits.
-/

namespace TurtleScript.Config

/-- A number as it is written: whole or not. -/
inductive Number where
  | integer (value : Int)
  | real (value : Float)
deriving Repr

/-- The digits of a text in which an underscore may stand between two digits; none if the text is
of another form. -/
def ungrouped? (isDigit : Char → Bool) : List Char → Option (List Char)
  | [] => none
  | [c] => if isDigit c then some [c] else none
  | c :: '_' :: rest => if isDigit c then (ungrouped? isDigit rest).map (c :: ·) else none
  | c :: rest => if isDigit c then (ungrouped? isDigit rest).map (c :: ·) else none

/-- The value of a digit in bases up to sixteen. -/
def digitOf (c : Char) : Nat :=
  if c.isDigit then c.toNat - 48 else if 'a' ≤ c then c.toNat - 87 else c.toNat - 55

def valueIn (base : Nat) (digits : List Char) : Nat :=
  digits.foldl (fun n c => base * n + digitOf c) 0

def word? (n : Int) : Option Number :=
  if Word.fits n then some (.integer n) else none

def based? (base : Nat) (isDigit : Char → Bool) (text : List Char) : Option Number :=
  (ungrouped? isDigit text).bind fun digits => word? (valueIn base digits)

def inRun (c : Char) : Bool := c.isDigit || c = '_'

/-- The whole part of a decimal number: no zero in front of other digits. -/
def whole? (text : List Char) : Option (List Char) :=
  match ungrouped? Char.isDigit text with
  | some digits => if digits.head? = some '0' ∧ text.length ≠ 1 then none else some digits
  | none => none

/-- The exponent of a decimal number: nothing, or the mark with an optional sign and digits. -/
def exponent? : List Char → Option Int
  | [] => some 0
  | mark :: rest =>
    if mark = 'e' ∨ mark = 'E' then
      let (negative, digits) := Decimal.takeSign rest
      (ungrouped? Char.isDigit digits).map fun digits =>
        if negative then -(Decimal.digitsValue digits : Int) else Decimal.digitsValue digits
    else none

/-- A real number; one too large to be finite is rejected. -/
def real? (negative : Bool) (mantissa : Nat) (exponent : Int) : Option Number :=
  let x := Decimal.ofExponent mantissa exponent
  if negative then some (.real (-x)) else if x.isFinite then some (.real x) else none

def decimal? (negative : Bool) (text : List Char) : Option Number := do
  let whole ← whole? (text.takeWhile inRun)
  match text.dropWhile inRun with
  | [] =>
    let value := Decimal.digitsValue whole
    word? (if negative then -value else value)
  | '.' :: behind =>
    let fraction ← ungrouped? Char.isDigit (behind.takeWhile inRun)
    let exponent ← exponent? (behind.dropWhile inRun)
    real? negative (Decimal.digitsValue (whole ++ fraction)) (exponent - fraction.length)
  | rest =>
    let exponent ← exponent? rest
    real? negative (Decimal.digitsValue whole) exponent

def isHexDigit (c : Char) : Bool :=
  c.isDigit || ('a' ≤ c && c ≤ 'f') || ('A' ≤ c && c ≤ 'F')

/-- The number that a text is. Only decimal numbers and the words have a sign. -/
def number? (text : List Char) : Option Number :=
  match text with
  | '0' :: 'x' :: digits => based? 16 isHexDigit digits
  | '0' :: 'o' :: digits => based? 8 (fun c => '0' ≤ c && c ≤ '7') digits
  | '0' :: 'b' :: digits => based? 2 (fun c => c = '0' || c = '1') digits
  | _ =>
    let (negative, rest) := Decimal.takeSign text
    if rest = ['i', 'n', 'f'] then some (.real (if negative then -1.0 / 0.0 else 1.0 / 0.0))
    else if rest = ['n', 'a', 'n'] then some (.real (0.0 / 0.0))
    else decimal? negative rest

end TurtleScript.Config
