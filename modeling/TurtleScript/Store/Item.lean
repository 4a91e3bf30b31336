import TurtleScript.Store
import TurtleScript.Decimal.Rounding
import TurtleScript.Word

/-!
Items by position. Positions count from zero; negative ones count from the end.
-/

namespace TurtleScript

/-- The position from the front that a signed one means, if there is such an item. Items of a sequence
too long for signed positions cannot be addressed. -/
def resolveIndex (index : Int) (length : Nat) : Option Nat :=
  if Word.greatest < length then none
  else
    let position := if index < 0 then length + index else index
    if 0 ≤ position ∧ position < length then some position.toNat else none

/-- The position that a value names. Integers beyond a machine word stand for the nearest word. -/
def positionOf (value : Value) : Except Fault Int :=
  match value.number?.bind Decimal.integer? with
  | some n => .ok (Word.clamp n)
  | none => .error (.typeError "Indexes must be integer numbers.")

namespace Store

def item (store : Store) (id : ArrayId) (index : Int) : Except Fault Value :=
  let items := store.items id
  match (resolveIndex index items.length).bind (items[·]?) with
  | some value => .ok value
  | none => .error (.indexOutOfRange "Array" index items.length)

/-- The position from the front that a signed one means in an array. -/
def positionIn (store : Store) (id : ArrayId) (index : Int) : Except Fault Nat :=
  let length := (store.items id).length
  match resolveIndex index length with
  | some position => .ok position
  | none => .error (.indexOutOfRange "Array" index length)

/-- The store with another item at a position from the front of an array. -/
def putItem (store : Store) (id : ArrayId) (position : Nat) (value : Value) : Store :=
  store.setItems id ((store.items id).set position value)

def setItem (store : Store) (id : ArrayId) (index : Int) (value : Value) : Except Fault Store :=
  match store.positionIn id index with
  | .ok position => .ok (store.putItem id position value)
  | .error fault => .error fault

/-- An item behind the last one; the result is the new length. -/
def pushBack (store : Store) (id : ArrayId) (value : Value) : Nat × Store :=
  let items := store.items id ++ [value]
  (items.length, store.setItems id items)

/-- An item in front of the first one; the result is the new length. -/
def pushFront (store : Store) (id : ArrayId) (value : Value) : Nat × Store :=
  let items := value :: store.items id
  (items.length, store.setItems id items)

/-- Takes off the last item; null when there is none. -/
def popBack (store : Store) (id : ArrayId) : Value × Store :=
  let items := store.items id
  (items.getLastD .null, store.setItems id items.dropLast)

/-- Takes off the first item; null when there is none. -/
def popFront (store : Store) (id : ArrayId) : Value × Store :=
  let items := store.items id
  (items.headD .null, store.setItems id items.tail)

def character (text : String) (index : Int) : Except Fault Value :=
  let chars := text.toList
  match (resolveIndex index chars.length).bind (chars[·]?) with
  | some c => .ok (.text c.toString)
  | none => .error (.indexOutOfRange "String" index chars.length)

/-- What stands at a position of a text or an array. -/
def itemOf (store : Store) (target position : Value) : Except Fault Value := do
  match target with
  | .text text => character text (← positionOf position)
  | .array id => store.item id (← positionOf position)
  | other => .error (.notIndexable other.typeName)

end Store

end TurtleScript
