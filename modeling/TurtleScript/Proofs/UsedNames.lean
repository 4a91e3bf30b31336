import TurtleScript.Proofs.Protection

/-!
The names that a program uses. A program that uses certain names only gets hold of the values of other names by no
other way: not from the store, as long as nothing there was taken from them (`Store.Only`), and not from a library
function (`Builtin.only_apply`).
-/

namespace TurtleScript

mutual

def Expr.names : Expr → List String
  | .assign name value _ => name :: value.names
  | .binary _ left right _ => left.names ++ right.names
  | .call callee args _ => callee.names ++ Expr.namesAll args
  | .grouping inner _ => inner.names
  | .literal _ _ => []
  | .logical _ left right _ => left.names ++ right.names
  | .unary _ operand _ => operand.names
  | .var name _ => [name]
  | .array items _ => Expr.namesAll items
  | .index target position _ => target.names ++ position.names

def Expr.namesAll : List Expr → List String
  | [] => []
  | e :: es => e.names ++ Expr.namesAll es

end

def Expr.namesOption : Option Expr → List String
  | some e => e.names
  | none => []

mutual

/-- The names in a statement, those it declares included. -/
def Stmt.names : Stmt → List String
  | .block body _ => Stmt.namesAll body
  | .expression value _ => value.names
  | .function name params body _ => name.text :: (params.map Name.text ++ Stmt.namesAll body)
  | .branch test yes no _ => test.names ++ (yes.names ++ Stmt.namesOption no)
  | .giveBack value _ => Expr.namesOption value
  | .var name initial _ => name.text :: Expr.namesOption initial
  | .loop test body _ => test.names ++ body.names

def Stmt.namesOption : Option Stmt → List String
  | some s => s.names
  | none => []

def Stmt.namesAll : List Stmt → List String
  | [] => []
  | s :: ss => s.names ++ Stmt.namesAll ss

end

variable {P : String → Prop}

/-- A value that uses some names only: a library function of such a name, or a declared function with only such names
in it. -/
def Value.Only (P : String → Prop) : Value → Prop
  | .function (.builtin b) => P b.name
  | .function (.declared c) => (∀ name ∈ c.params.map Name.text,P name) ∧ ∀ name ∈ Stmt.namesAll c.body,P name
  | _ => True

theorem Value.Plain.only {a : Value} (plain : a.Plain) : a.Only P := by
  cases a with
  | function => exact plain.elim
  | _ => exact trivial

theorem UnaryOp.plain_apply {op : UnaryOp} {a b : Value} (made : op.apply a = .ok b) : b.Plain := by
  cases op <;> cases a <;> cases made <;> exact trivial

theorem BinaryOp.plain_apply {op : BinaryOp} {a b c : Value} (made : op.apply a b = .ok c) : c.Plain := by
  cases op <;> cases a <;> cases b <;> cases made <;> exact trivial

/-- A binding of a name that may be used has a value that may; all others are of the library. -/
structure Binding.Only (P : String → Prop) (b : Binding) : Prop where
  value : P b.name → b.value.Only P
  own : b.library = false → P b.name

/-- The names that may be used lead to values that may. -/
structure Store.Only (P : String → Prop) (store : Store) : Prop where
  bindings : ∀ id, ∀ b ∈ (store.frame id).bindings, b.Only P
  items : ∀ id, ∀ a ∈ store.items id, a.Only P

namespace Store

variable {store : Store}

theorem frame_changeFrame_or (id other : FrameId) (f : Frame → Frame) :
    (store.changeFrame id f).frame other = f (store.frame other) ∨
      (store.changeFrame id f).frame other = store.frame other := by
  unfold changeFrame frame
  simp only [Array.getD_eq_getD_getElem?,Array.getElem?_modify]
  by_cases same : id = other
  · cases found : store.frames[other]? with
    | none => exact .inr (by simp [same])
    | some frame => exact .inl (by simp [same])
  · exact .inr (by simp [same])

namespace Only

theorem get (only : store.Only P) {id : FrameId} {name : String} {a : Value} (allowed : P name)
    (found : store.get id name = .ok a) : a.Only P := by
  unfold Store.get Store.binding? at found
  split at found
  case h_1 b isBinding =>
    cases found
    obtain ⟨holder,_,there⟩ := List.exists_of_findSome?_eq_some isBinding
    obtain ⟨mem,named⟩ := Frame.mem_bindings_of_find? there
    exact (only.bindings holder b mem).value (named ▸ allowed)
  case h_2 => cases found

theorem changeFrame (only : store.Only P) (id : FrameId) {f : Frame → Frame}
    (kept : ∀ frame : Frame, (∀ b ∈ frame.bindings, b.Only P) → ∀ b ∈ (f frame).bindings, b.Only P) :
    (store.changeFrame id f).Only P := by
  refine ⟨fun other => ?_,only.items⟩
  rcases store.frame_changeFrame_or id other f with same | same
  · rw [same]
    exact kept _ (only.bindings other)
  · rw [same]
    exact only.bindings other

theorem bind (only : store.Only P) (id : FrameId) {name : String} {a : Value} (allowed : P name) (fits : a.Only P) :
    (store.bind id { name := name, value := a }).Only P := by
  refine only.changeFrame id fun frame each b mem => ?_
  rcases List.mem_append.mp mem with old | new
  · exact each b old
  · cases List.mem_singleton.mp new
    exact ⟨fun _ => fits,fun _ => allowed⟩

theorem put (only : store.Only P) (id : FrameId) (name : String) {a : Value} (fits : a.Only P) :
    (store.put id name a).Only P := by
  refine only.changeFrame id fun frame each b mem => ?_
  obtain ⟨old,there,rfl⟩ := List.mem_map.mp mem
  split
  · exact ⟨fun _ => fits,(each old there).own⟩
  · exact each old there

theorem child (only : store.Only P) (parent : FrameId) : (store.child parent).2.Only P := by
  refine ⟨fun id b mem => ?_,only.items⟩
  rw [frame_child] at mem
  split at mem
  · cases mem
  · exact only.bindings id b mem

theorem newArray (only : store.Only P) {items : List Value} (each : ∀ a ∈ items, a.Only P) :
    (store.newArray items).2.Only P := by
  refine ⟨only.bindings,fun other a mem => ?_⟩
  rcases items_newArray mem with new | old
  · exact each a new
  · exact only.items other a old

theorem itemOf (only : store.Only P) {target position a : Value} (found : store.itemOf target position = .ok a) :
    a.Only P := by
  rcases Builtin.found_of_itemOf found with plain | ⟨id,mem⟩
  · exact plain.only
  · exact only.items id a mem

end Only

end Store

/-- A library function gives and stores nothing but what it was given or found in an array. -/
theorem Builtin.only_apply (b : Builtin) {args : List Value} {s : Scene} (only : s.store.Only P)
    (each : ∀ a ∈ args, a.Only P) :
    ((b.apply args).onScene s).2.store.Only P ∧ ∀ a, ((b.apply args).onScene s).1 = .ok a → a.Only P := by
  have effect := b.effect args s
  obtain ⟨items,given⟩ := effect.carries (fun _ => Value.Plain.only) each only.items
  refine ⟨⟨?_,items⟩,given⟩
  rw [Store.frame_of_frames effect.frames_eq]
  exact only.bindings

end TurtleScript
