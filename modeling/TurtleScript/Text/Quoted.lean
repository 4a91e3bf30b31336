import TurtleScript.Text.Printable
import TurtleScript.Text.Combining

/-!
Texts in quotes, so that every character can be told from the picture: what has no shape of its own
is written by its code point.
-/

namespace TurtleScript.Text

def codePoint (c : Char) : String :=
  "\\u\x7b" ++ String.ofList (Nat.toDigits 16 c.toNat) ++ "\x7d"

def escaped (c : Char) : String :=
  match c with
  | '"' => "\\\""
  | '\\' => "\\\\"
  | '\n' => "\\n"
  | '\r' => "\\r"
  | '\t' => "\\t"
  | '\x00' => "\\0"
  | c =>
    if 32 ≤ c.toNat && c.toNat < 127 then c.toString
    else if isCombining c || !isPrintable c then codePoint c
    else c.toString

def quoted (text : String) : String := "\"" ++ String.join (text.toList.map escaped) ++ "\""

end TurtleScript.Text
