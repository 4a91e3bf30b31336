import TurtleScript.Store

/-!
Values as texts. An array shows its items, and arrays nested too deeply are cut short, because an
array may contain itself.
-/

namespace TurtleScript.Store

def shownNesting : Nat := 16

/-- A value as a text, with at most the given number of nested arrays. -/
def shownWithin (store : Store) : Nat → Value → String
  | _, .number value => Decimal.plain value
  | _, .text value => value
  | _, .bool value => if value then "true" else "false"
  | _, .null => "null"
  | _, .function function => s!"<function {function.name}>"
  | 0, .array _ => "[...]"
  | n + 1, .array id =>
    "[" ++ String.intercalate ", " ((store.items id).map (store.shownWithin n)) ++ "]"

/-- A value as programs print it. -/
def shown (store : Store) (value : Value) : String := store.shownWithin shownNesting value

/-- A value as it is listed: a text by itself is put in quotes. -/
def listed (store : Store) (value : Value) : String :=
  match value.text? with
  | some text => Text.quoted text
  | none => store.shown value

end TurtleScript.Store
