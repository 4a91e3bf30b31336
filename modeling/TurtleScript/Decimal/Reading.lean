/-!
Reading numbers. `Decimal.read?` accepts a sign, digits with an optional point somewhere among
them, an optional exponent, and the words for infinity and for an undefined number; the result is
the double nearest to the decimal value.
-/

namespace TurtleScript.Decimal

def digitsValue (digits : List Char) : Nat :=
  digits.foldl (fun n c => 10 * n + (c.toNat - 48)) 0

/-- The double nearest to the number with the given digits in front of the point and behind it. -/
def ofDigits (whole fraction : List Char) : Float :=
  Float.ofScientific (digitsValue (whole ++ fraction)) true fraction.length

/-- The double nearest to `mantissa · 10 ^ exponent`. A value far beyond the range of doubles is
cut off without computing the power. -/
def ofExponent (mantissa : Nat) (exponent : Int) : Float :=
  let top := exponent + (Nat.toDigits 10 mantissa).length
  if mantissa = 0 ∨ top < -400 then 0.0
  else if 400 < top then Float.ofScientific 1 false 400
  else Float.ofScientific mantissa (exponent < 0) exponent.natAbs

/-- An optional sign in front of a text; `true` marks a minus. -/
def takeSign : List Char → Bool × List Char
  | '+' :: rest => (false, rest)
  | '-' :: rest => (true, rest)
  | text => (false, text)

/-- The exponent part of a number: nothing, or the mark with an optional sign and digits. -/
def readExponent? : List Char → Option Int
  | [] => some 0
  | mark :: rest =>
    if mark = 'e' ∨ mark = 'E' then
      let (negative, digits) := takeSign rest
      if digits.isEmpty ∨ ¬ digits.all Char.isDigit then none
      else
        let value := digitsValue digits
        some (if negative then -value else value)
    else none

/-- An unsigned decimal number. There is a digit before or behind the point. -/
def readUnsigned? (text : List Char) : Option Float :=
  let whole := text.takeWhile Char.isDigit
  let rest := text.dropWhile Char.isDigit
  let (fraction, tail) :=
    match rest with
    | '.' :: behind => (behind.takeWhile Char.isDigit, behind.dropWhile Char.isDigit)
    | _ => ([], rest)
  if whole.isEmpty ∧ fraction.isEmpty then none
  else
    (readExponent? tail).map fun exponent =>
      ofExponent (digitsValue (whole ++ fraction)) (exponent - fraction.length)

/-- The value of a word that stands for a number, in either case of letters. -/
def wordValue? (word : String) : Option Float :=
  if word = "inf" ∨ word = "infinity" then some (1.0 / 0.0)
  else if word = "nan" then some (0.0 / 0.0)
  else none

def read? (text : String) : Option Float :=
  let (negative, rest) := takeSign text.toList
  let magnitude :=
    match wordValue? (String.ofList (rest.map Char.toLower)) with
    | some value => some value
    | none => readUnsigned? rest
  magnitude.map fun value => if negative then -value else value

end TurtleScript.Decimal
