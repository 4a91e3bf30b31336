import TurtleScript.Evaluate
import TurtleScript.Proofs.Derivation
import TurtleScript.Proofs.Moving

/-!
Trees, values and stores with other spans. Spans are carried along by running programs, in the bodies of declared
functions, and never looked at: whatever a store is asked or told, it does not matter whether its spans are changed
before or after that (`Store.get_respan` and those behind it).
-/

namespace TurtleScript

def Name.respan (f : Span → Span) (name : Name) : Name := ⟨name.text,f name.span⟩

mutual

def Expr.respan (f : Span → Span) : Expr → Expr
  | .assign name value span => .assign name (value.respan f) (f span)
  | .binary op left right span => .binary op (left.respan f) (right.respan f) (f span)
  | .call callee args span => .call (callee.respan f) (Expr.respanAll f args) (f span)
  | .grouping inner span => .grouping (inner.respan f) (f span)
  | .literal value span => .literal value (f span)
  | .logical op left right span => .logical op (left.respan f) (right.respan f) (f span)
  | .unary op operand span => .unary op (operand.respan f) (f span)
  | .var name span => .var name (f span)
  | .array items span => .array (Expr.respanAll f items) (f span)
  | .index target position span => .index (target.respan f) (position.respan f) (f span)

def Expr.respanAll (f : Span → Span) : List Expr → List Expr
  | [] => []
  | e :: es => e.respan f :: Expr.respanAll f es

end

mutual

def Stmt.respan (f : Span → Span) : Stmt → Stmt
  | .block body span => .block (Stmt.respanAll f body) (f span)
  | .expression value span => .expression (value.respan f) (f span)
  | .function name params body span =>
    .function (name.respan f) (params.map (Name.respan f)) (Stmt.respanAll f body) (f span)
  | .branch test yes no span => .branch (test.respan f) (yes.respan f) (Stmt.respanOption f no) (f span)
  | .giveBack value span => .giveBack (value.map (Expr.respan f)) (f span)
  | .var name initial span => .var (name.respan f) (initial.map (Expr.respan f)) (f span)
  | .loop test body span => .loop (test.respan f) (body.respan f) (f span)

/-- A branch that may be missing, with its spans changed. -/
def Stmt.respanOption (f : Span → Span) : Option Stmt → Option Stmt
  | some s => some (s.respan f)
  | none => none

def Stmt.respanAll (f : Span → Span) : List Stmt → List Stmt
  | [] => []
  | s :: ss => s.respan f :: Stmt.respanAll f ss

end

def Program.respan (f : Span → Span) (program : Program) : Program := ⟨Stmt.respanAll f program.statements⟩

theorem Stmt.respanAll_eq_map (f : Span → Span) (ss : List Stmt) : Stmt.respanAll f ss = ss.map (Stmt.respan f) := by
  induction ss with
  | nil => rfl
  | cons s ss ih => rw [Stmt.respanAll,ih,List.map_cons]

theorem Expr.shown_respan (f : Span → Span) : ∀ e : Expr, (e.respan f).shown = e.shown
  | .var _ _ | .literal _ _ | .assign _ _ _ | .binary _ _ _ _ | .logical _ _ _ _ | .unary _ _ _ | .array _ _ => by
    simp only [Expr.respan,Expr.shown]
  | .grouping inner _ => by simp only [Expr.respan,Expr.shown,Expr.shown_respan f inner]
  | .call callee _ _ => by simp only [Expr.respan,Expr.shown,Expr.shown_respan f callee]
  | .index target _ _ => by simp only [Expr.respan,Expr.shown,Expr.shown_respan f target]

/-! Nothing is changed, or all spans are forgotten. -/

mutual

theorem Expr.respan_id : ∀ e : Expr, e.respan id = e
  | .var _ _ | .literal _ _ => by simp only [Expr.respan,id]
  | .assign _ a _ | .grouping a _ | .unary _ a _ => by simp only [Expr.respan,id,Expr.respan_id a]
  | .binary _ a b _ | .logical _ a b _ | .index a b _ => by
    simp only [Expr.respan,id,Expr.respan_id a,Expr.respan_id b]
  | .call a args _ => by simp only [Expr.respan,id,Expr.respan_id a,Expr.respanAll_id args]
  | .array items _ => by simp only [Expr.respan,id,Expr.respanAll_id items]

theorem Expr.respanAll_id : ∀ es : List Expr, Expr.respanAll id es = es
  | [] => by simp only [Expr.respanAll]
  | e :: es => by simp only [Expr.respanAll,Expr.respan_id e,Expr.respanAll_id es]

end

theorem Expr.respan_id_option (e : Option Expr) : e.map (Expr.respan id) = e := by
  cases e with
  | none => rfl
  | some e => exact congrArg some e.respan_id

mutual

theorem Stmt.respan_id : ∀ s : Stmt, s.respan id = s
  | .block body _ => by simp only [Stmt.respan,id,Stmt.respanAll_id body]
  | .expression value _ => by simp only [Stmt.respan,id,value.respan_id]
  | .function name params body _ => by
    have same : params.map (Name.respan id) = params := List.map_id params
    simp only [Stmt.respan,id,same,Stmt.respanAll_id body]
    rfl
  | .branch test yes no _ => by
    simp only [Stmt.respan,id,test.respan_id,Stmt.respan_id yes,Stmt.respanOption_id no]
  | .giveBack value _ => by simp only [Stmt.respan,id,Expr.respan_id_option]
  | .var name initial _ => by
    simp only [Stmt.respan,id,Expr.respan_id_option]
    rfl
  | .loop test body _ => by simp only [Stmt.respan,id,test.respan_id,Stmt.respan_id body]

theorem Stmt.respanOption_id : ∀ s : Option Stmt, Stmt.respanOption id s = s
  | none => by simp only [Stmt.respanOption]
  | some s => by simp only [Stmt.respanOption,Stmt.respan_id s]

theorem Stmt.respanAll_id : ∀ ss : List Stmt, Stmt.respanAll id ss = ss
  | [] => by simp only [Stmt.respanAll]
  | s :: ss => by simp only [Stmt.respanAll,Stmt.respan_id s,Stmt.respanAll_id ss]

end

def Span.forget (_ : Span) : Span := default

mutual

theorem Expr.respan_forget : ∀ e : Expr, e.respan Span.forget = e.bare
  | .var _ _ | .literal _ _ => by simp only [Expr.respan,Expr.bare,Span.forget]
  | .assign _ a _ | .grouping a _ | .unary _ a _ => by
    simp only [Expr.respan,Expr.bare,Span.forget,Expr.respan_forget a]
  | .binary _ a b _ | .logical _ a b _ | .index a b _ => by
    simp only [Expr.respan,Expr.bare,Span.forget,Expr.respan_forget a,Expr.respan_forget b]
  | .call a args _ => by
    simp only [Expr.respan,Expr.bare,Span.forget,Expr.respan_forget a,Expr.respanAll_forget args]
  | .array items _ => by simp only [Expr.respan,Expr.bare,Span.forget,Expr.respanAll_forget items]

theorem Expr.respanAll_forget : ∀ es : List Expr, Expr.respanAll Span.forget es = Expr.bareAll es
  | [] => by simp only [Expr.respanAll,Expr.bareAll]
  | e :: es => by simp only [Expr.respanAll,Expr.bareAll,Expr.respan_forget e,Expr.respanAll_forget es]

end

theorem Expr.respan_forget_option (e : Option Expr) : e.map (Expr.respan Span.forget) = e.map Expr.bare := by
  cases e with
  | none => rfl
  | some e => exact congrArg some e.respan_forget

mutual

theorem Stmt.respan_forget : ∀ s : Stmt, s.respan Span.forget = s.bare
  | .block body _ => by simp only [Stmt.respan,Stmt.bare,Span.forget,Stmt.respanAll_forget body]
  | .expression value _ => by simp only [Stmt.respan,Stmt.bare,Span.forget,value.respan_forget]
  | .function name params body _ => by
    simp only [Stmt.respan,Stmt.bare,Stmt.respanAll_forget body]
    rfl
  | .branch test yes no _ => by
    simp only [Stmt.respan,Stmt.bare,Span.forget,test.respan_forget,Stmt.respan_forget yes,
      Stmt.respanOption_forget no]
  | .giveBack value _ => by simp only [Stmt.respan,Stmt.bare,Span.forget,Expr.respan_forget_option]
  | .var name initial _ => by
    simp only [Stmt.respan,Stmt.bare,Expr.respan_forget_option]
    rfl
  | .loop test body _ => by
    simp only [Stmt.respan,Stmt.bare,Span.forget,test.respan_forget,Stmt.respan_forget body]

theorem Stmt.respanOption_forget : ∀ s : Option Stmt, Stmt.respanOption Span.forget s = Stmt.bareOption s
  | none => by simp only [Stmt.respanOption,Stmt.bareOption]
  | some s => by simp only [Stmt.respanOption,Stmt.bareOption,Stmt.respan_forget s]

theorem Stmt.respanAll_forget : ∀ ss : List Stmt, Stmt.respanAll Span.forget ss = Stmt.bareAll ss
  | [] => by simp only [Stmt.respanAll,Stmt.bareAll]
  | s :: ss => by simp only [Stmt.respanAll,Stmt.bareAll,Stmt.respan_forget s,Stmt.respanAll_forget ss]

end

def Closure.respan (f : Span → Span) (c : Closure) : Closure :=
  { c with name := c.name.respan f, params := c.params.map (Name.respan f), body := Stmt.respanAll f c.body }

def Function.respan (f : Span → Span) : Function → Function
  | .builtin b => .builtin b
  | .declared c => .declared (c.respan f)

def Value.respan (f : Span → Span) : Value → Value
  | .function g => .function (g.respan f)
  | a => a

section
variable (f : Span → Span)

@[simp] theorem Function.name_respan (function : Function) : (function.respan f).name = function.name := by
  cases function <;> rfl

@[simp] theorem Function.arity_respan (function : Function) : (function.respan f).arity = function.arity := by
  cases function with
  | builtin b => rfl
  | declared c => exact List.length_map _

theorem Function.same_respan (a b : Function) : (a.respan f).same (b.respan f) = a.same b := by
  cases a <;> cases b <;> rfl

@[simp] theorem Value.respan_ofLiteral (literal : Literal) :
    (Value.ofLiteral literal).respan f = .ofLiteral literal := by
  cases literal <;> rfl

@[simp] theorem Value.truthy_respan (a : Value) : (a.respan f).truthy = a.truthy := by
  cases a <;> rfl

@[simp] theorem Value.number?_respan (a : Value) : (a.respan f).number? = a.number? := by
  cases a <;> rfl

theorem Value.equal_respan (a b : Value) : (a.respan f).equal (b.respan f) = a.equal b := by
  cases a <;> cases b <;> first | rfl | exact Function.same_respan f _ _

theorem UnaryOp.apply_respan (op : UnaryOp) (a : Value) :
    op.apply (a.respan f) = (op.apply a).map (Value.respan f) := by
  cases op <;> cases a <;> rfl

theorem BinaryOp.apply_respan (op : BinaryOp) (a b : Value) :
    op.apply (a.respan f) (b.respan f) = (op.apply a b).map (Value.respan f) := by
  cases op with
  | eq => exact congrArg (Except.ok <| Value.bool ·) (Value.equal_respan f a b)
  | ne => exact congrArg (Except.ok <| Value.bool !·) (Value.equal_respan f a b)
  | _ => cases a <;> cases b <;> rfl

@[simp] theorem LogicalOp.settledBy_respan (op : LogicalOp) (a : Value) :
    op.settledBy (a.respan f) = op.settledBy a := by
  cases op <;> simp [LogicalOp.settledBy]

end

/-! ### Stores -/

def Binding.respan (f : Span → Span) (b : Binding) : Binding := { b with value := b.value.respan f }

def Frame.respan (f : Span → Span) (frame : Frame) : Frame :=
  { frame with bindings := frame.bindings.map (Binding.respan f) }

def Store.respan (f : Span → Span) (store : Store) : Store :=
  { store with
    frames := store.frames.map (Frame.respan f)
    arrays := store.arrays.map (List.map (Value.respan f)) }

def Store.Variable.respan (f : Span → Span) (v : Store.Variable) : Store.Variable :=
  { v with value := v.value.respan f }

section
variable (f : Span → Span)

theorem Frame.find?_respan (frame : Frame) (name : String) :
    (frame.respan f).find? name = (frame.find? name).map (Binding.respan f) :=
  List.find?_map

theorem Frame.binds_respan (frame : Frame) (name : String) : (frame.respan f).binds name = frame.binds name := by
  unfold Frame.binds
  rw [Frame.find?_respan,Option.isSome_map]

theorem Frame.insert_respan (frame : Frame) (b : Binding) :
    (frame.insert b).respan f = (frame.respan f).insert (b.respan f) := by
  unfold Frame.respan Frame.insert
  simp

theorem Frame.assign_respan (frame : Frame) (name : String) (a : Value) :
    (frame.assign name a).respan f = (frame.respan f).assign name (a.respan f) := by
  unfold Frame.respan Frame.assign
  simp only [List.map_map]
  congr 1
  refine List.map_congr_left fun b _ => ?_
  by_cases named : b.name = name
  · simp [Binding.respan,named]
  · simp [Binding.respan,named]

namespace Store

variable (store : Store)

theorem frame_respan (id : FrameId) : (store.respan f).frame id = (store.frame id).respan f := by
  unfold Store.frame Store.respan
  simp only [Array.getD_eq_getD_getElem?,Array.getElem?_map]
  cases store.frames[id]? <;> rfl

theorem chain_respan (id : FrameId) : (store.respan f).chain id = store.chain id := by
  unfold chain
  rw [frame_respan]
  rfl

theorem holder?_respan (id : FrameId) (name : String) : (store.respan f).holder? id name = store.holder? id name := by
  unfold holder?
  simp only [chain_respan,frame_respan,Frame.binds_respan]

theorem binding?_respan (id : FrameId) (name : String) :
    (store.respan f).binding? id name = (store.binding? id name).map (Binding.respan f) := by
  unfold binding?
  simp only [chain_respan,frame_respan,Frame.find?_respan]
  exact List.map_findSome?.symm

theorem get_respan (id : FrameId) (name : String) :
    (store.respan f).get id name = (store.get id name).map (Value.respan f) := by
  unfold get
  rw [binding?_respan]
  cases store.binding? id name <;> rfl

theorem any_library_respan (found : Option Binding) :
    (found.map (Binding.respan f)).any Binding.library = found.any Binding.library := by
  cases found <;> rfl

theorem definable_respan (id : FrameId) (name : String) :
    (store.respan f).definable id name = store.definable id name := by
  unfold definable isProtected rootOf
  simp only [chain_respan,frame_respan,Frame.binds_respan,Frame.find?_respan,any_library_respan]

theorem assignable_respan (id : FrameId) (name : String) :
    (store.respan f).assignable id name = store.assignable id name := by
  unfold assignable
  simp only [holder?_respan,frame_respan,Frame.find?_respan,any_library_respan]

theorem changeFrame_respan (id : FrameId) {g h : Frame → Frame}
    (same : ∀ frame, (g frame).respan f = h (frame.respan f)) :
    (store.changeFrame id g).respan f = (store.respan f).changeFrame id h := by
  unfold changeFrame Store.respan
  congr 1
  refine Array.ext (by simp) fun i _ _ => ?_
  simp only [Array.getElem_map,Array.getElem_modify]
  split
  · exact same _
  · rfl

theorem bind_respan (id : FrameId) (b : Binding) :
    (store.bind id b).respan f = (store.respan f).bind id (b.respan f) :=
  store.changeFrame_respan f id fun frame => frame.insert_respan f b

theorem put_respan (id : FrameId) (name : String) (a : Value) :
    (store.put id name a).respan f = (store.respan f).put id name (a.respan f) :=
  store.changeFrame_respan f id fun frame => frame.assign_respan f name a

theorem child_respan (parent : FrameId) :
    (store.respan f).child parent = ((store.child parent).1,(store.child parent).2.respan f) := by
  unfold child
  rw [chain_respan]
  simp [Store.respan,Frame.respan]

theorem newClosure_respan (scope : FrameId) (name : Name) (params : List Name) (body : List Stmt) :
    (store.respan f).newClosure scope (name.respan f) (params.map (Name.respan f)) (Stmt.respanAll f body) =
      ((store.newClosure scope name params body).1.respan f,(store.newClosure scope name params body).2.respan f) := rfl

/-! Arrays. -/

theorem items_respan (id : ArrayId) : (store.respan f).items id = (store.items id).map (Value.respan f) := by
  unfold items Store.respan
  simp only [Array.getD_eq_getD_getElem?,Array.getElem?_map]
  cases store.arrays[id]? <;> rfl

theorem setItems_respan (id : ArrayId) (items : List Value) :
    (store.setItems id items).respan f = (store.respan f).setItems id (items.map (Value.respan f)) := by
  unfold setItems Store.respan
  congr 1
  refine Array.ext (by simp) fun i _ _ => ?_
  simp only [Array.getElem_map,Array.getElem_modify]
  split <;> rfl

theorem newArray_respan (items : List Value) :
    (store.respan f).newArray (items.map (Value.respan f)) =
      ((store.newArray items).1.respan f,(store.newArray items).2.respan f) := by
  simp [newArray,Store.respan,Value.respan]

theorem positionOf_respan (a : Value) : positionOf (a.respan f) = positionOf a := by
  unfold positionOf
  rw [Value.number?_respan]

theorem item_respan (id : ArrayId) (index : Int) :
    (store.respan f).item id index = (store.item id index).map (Value.respan f) := by
  unfold item
  simp only [items_respan,List.length_map,List.getElem?_map]
  cases resolveIndex index (store.items id).length with
  | none => rfl
  | some position =>
    simp only [Option.bind_some]
    cases (store.items id)[position]? <;> rfl

theorem positionIn_respan (id : ArrayId) (index : Int) :
    (store.respan f).positionIn id index = store.positionIn id index := by
  unfold positionIn
  simp only [items_respan,List.length_map]

theorem putItem_respan (id : ArrayId) (position : Nat) (a : Value) :
    (store.respan f).putItem id position (a.respan f) = (store.putItem id position a).respan f := by
  unfold putItem
  rw [setItems_respan,items_respan,List.map_set]

theorem pushBack_respan (id : ArrayId) (a : Value) :
    (store.respan f).pushBack id (a.respan f) = ((store.pushBack id a).1,(store.pushBack id a).2.respan f) := by
  simp [pushBack,setItems_respan,items_respan]

theorem pushFront_respan (id : ArrayId) (a : Value) :
    (store.respan f).pushFront id (a.respan f) = ((store.pushFront id a).1,(store.pushFront id a).2.respan f) := by
  simp [pushFront,setItems_respan,items_respan]

theorem popBack_respan (id : ArrayId) :
    (store.respan f).popBack id = ((store.popBack id).1.respan f,(store.popBack id).2.respan f) := by
  unfold popBack
  simp only [setItems_respan,items_respan,List.map_dropLast]
  congr 1
  rw [List.getLastD_eq_getLast?,List.getLastD_eq_getLast?,List.getLast?_map]
  cases (store.items id).getLast? <;> rfl

theorem popFront_respan (id : ArrayId) :
    (store.respan f).popFront id = ((store.popFront id).1.respan f,(store.popFront id).2.respan f) := by
  unfold popFront
  simp only [setItems_respan,items_respan,List.map_tail]
  cases store.items id <;> rfl

theorem itemOf_respan (target position : Value) :
    (store.respan f).itemOf (target.respan f) (position.respan f) =
      (store.itemOf target position).map (Value.respan f) := by
  unfold itemOf
  rw [positionOf_respan]
  cases target with
  | text t =>
    simp only [Value.respan]
    cases positionOf position with
    | error fault => rfl
    | ok index =>
      show character t index = (character t index).map _
      unfold character
      dsimp only
      split <;> rfl
  | array id =>
    simp only [Value.respan]
    cases positionOf position with
    | error fault => rfl
    | ok index => exact store.item_respan f id index
  | _ => rfl

/-! Values as texts, and the variables. -/

theorem shownWithin_respan : ∀ (n : Nat) (a : Value),
    (store.respan f).shownWithin n (a.respan f) = store.shownWithin n a
  | n,.number _ | n,.text _ | n,.bool _ | n,.null => by cases n <;> rfl
  | n,.function g => by
    have same : (g.respan f).name = g.name := g.name_respan f
    cases n <;> simp only [Value.respan,shownWithin,same]
  | 0,.array _ => rfl
  | n + 1,.array id => by
    simp only [Value.respan,shownWithin,items_respan,List.map_map]
    congr 3
    exact List.map_congr_left fun a _ => shownWithin_respan n a

theorem shown_respan (a : Value) : (store.respan f).shown (a.respan f) = store.shown a :=
  store.shownWithin_respan f shownNesting a

theorem ownBindings_respan (frame : Frame) :
    ownBindings (frame.respan f) = (ownBindings frame).map (Binding.respan f) := by
  unfold ownBindings
  rw [Frame.respan,List.filter_map]
  refine (List.map_mergeSort (f := Binding.respan f) fun _ _ _ _ => ?_).symm
  rfl

theorem visibleFrom_respan : ∀ (outer : List FrameId) (depth : Nat) (seen : List String),
    (store.respan f).visibleFrom depth seen outer = (store.visibleFrom depth seen outer).map (Variable.respan f)
  | [],_,_ => rfl
  | id :: outer,depth,seen => by
    unfold visibleFrom
    simp only [frame_respan,ownBindings_respan,Frame.binds_respan,List.filter_map,List.map_map,List.map_append,
      visibleFrom_respan outer]
    rfl

theorem visible_respan (id : FrameId) :
    (store.respan f).visible id = (store.visible id).map (Variable.respan f) := by
  unfold visible
  rw [chain_respan,visibleFrom_respan]

end Store

end

def Failure.respan (f : Span → Span) (failure : Failure) : Failure := { failure with span := failure.span.map f }

def Interruption.respan (f : Span → Span) : Interruption → Interruption
  | .failed failure => .failed (failure.respan f)
  | .killed => .killed

theorem Interruption.locate_respan (f : Span → Span) (e : Interruption) (span : Span) :
    (e.locate span).respan f = (e.respan f).locate (f span) := by
  cases e with
  | killed => rfl
  | failed failure =>
    rcases failure with ⟨fault,_ | place⟩
    · rfl
    · rfl

theorem Value.respan_id (a : Value) : a.respan id = a := by
  cases a with
  | function g =>
    cases g with
    | builtin b => rfl
    | declared c =>
      have params : c.params.map (Name.respan id) = c.params := List.map_id _
      simp only [Value.respan,Function.respan,Closure.respan,params,Stmt.respanAll_id]
      rfl
  | _ => rfl

theorem Store.respan_id (store : Store) : store.respan id = store := by
  have binding : Binding.respan id = id := by
    funext b
    simp only [Binding.respan,Value.respan_id,id]
  have frame : Frame.respan id = id := by
    funext frame
    simp only [Frame.respan,binding,List.map_id,id]
  have value : Value.respan id = id := funext Value.respan_id
  simp only [Store.respan,frame,value,List.map_id_fun,Array.map_id]

end TurtleScript
