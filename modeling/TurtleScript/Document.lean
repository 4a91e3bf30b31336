import TurtleScript.Decimal.Notation

/-!
JSON documents, and how they are laid out: every element and field on a line of its own, two
spaces further in than what holds it; fields in the order in which they are given.
-/

namespace TurtleScript

inductive Document where
  | null
  | bool (value : Bool)
  | natural (value : Nat)
  | number (value : Float)
  | text (value : String)
  | list (items : List Document)
  | object (fields : List (String × Document))
deriving Inhabited

namespace Document

/-- A document for a value that may be missing. -/
def ofOption {α : Type} (f : α → Document) : Option α → Document
  | some a => f a
  | none => .null

/-- A character inside a string: quotes, backslashes and control characters are escaped. -/
def escaped (c : Char) : String :=
  match c with
  | '"' => "\\\""
  | '\\' => "\\\\"
  | '\n' => "\\n"
  | '\r' => "\\r"
  | '\t' => "\\t"
  | '\x08' => "\\b"
  | '\x0c' => "\\f"
  | c =>
    if c.toNat < 32 then
      let digits := String.ofList (Nat.toDigits 16 c.toNat)
      "\\u" ++ Decimal.zeros (4 - digits.length) ++ digits
    else c.toString

def quoted (text : String) : String :=
  "\"" ++ String.join (text.toList.map escaped) ++ "\""

def newLine (depth : Nat) : String := "\n" ++ String.ofList (List.replicate (2 * depth) ' ')

/-- Parts between brackets, each on a line of its own. -/
def bracketed (opening closing : String) (depth : Nat) (parts : List String) : String :=
  if parts.isEmpty then opening ++ closing
  else
    opening ++ newLine (depth + 1) ++ String.intercalate ("," ++ newLine (depth + 1)) parts
      ++ newLine depth ++ closing

mutual

/-- The document as a text, its first line being already `depth` levels in. -/
def layoutAt (depth : Nat) : Document → String
  | .null => "null"
  | .bool value => if value then "true" else "false"
  | .natural value => Decimal.digitText value
  | .number value => Decimal.json value
  | .text value => quoted value
  | .list items => bracketed "[" "]" depth (layoutItems (depth + 1) items)
  | .object fields => bracketed "\x7b" "\x7d" depth (layoutFields (depth + 1) fields)

def layoutItems (depth : Nat) : List Document → List String
  | [] => []
  | item :: items => layoutAt depth item :: layoutItems depth items

def layoutFields (depth : Nat) : List (String × Document) → List String
  | [] => []
  | (name, value) :: fields =>
    (quoted name ++ ": " ++ layoutAt depth value) :: layoutFields depth fields

end

def layout (document : Document) : String := document.layoutAt 0

end Document

end TurtleScript
