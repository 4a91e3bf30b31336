import TurtleScript.Proofs.FailingCalls
import TurtleScript.Proofs.Runs
import TurtleScript.Proofs.WholeDoubles

/-!
Positions that count from either end. An element of a sequence has two names, its position and what is left of
that when the length is taken away (`Names`), and both are found whatever machine words do to a number
(`resolveIndex_clamp`, `resolveWord?_eq`). A number that names no element is answered by what is wrong with it
(`Answers`), and a change of an item is seen under both of its names and nowhere else (`Assigned`).
-/

namespace TurtleScript

open Decimal (IsInteger integer?_eq_some_iff)

def Word.sum? (a b : Int) : Option Int := if fits (a + b) then some (a + b) else none

/-- The position that a signed one means, where a sum that is no word would be an overflow. -/
def resolveWord? (index : Int) (length : Nat) : Option (Option Nat) :=
  if Word.greatest < length then some none
  else
    let position : Option Int := if index < 0 then Word.sum? length index else some index
    position.map fun (position : Int) => if 0 ≤ position ∧ position < length then some position.toNat else none

theorem resolveWord?_eq {index : Int} (word : Word.fits index) (length : Nat) :
    resolveWord? index length = some (resolveIndex index length) := by
  unfold resolveWord? resolveIndex
  by_cases long : Word.greatest < length
  · rw [if_pos long,if_pos long]
  rw [if_neg long,if_neg long]
  by_cases negative : index < 0
  · have sum : Word.fits (length + index) = true := by
      simp only [Word.fits,Bool.and_eq_true,decide_eq_true_iff] at word ⊢
      unfold Word.least Word.greatest at *
      omega
    simp only [if_pos negative,Word.sum?,sum,if_true,Option.map_some]
  · simp only [if_neg negative,Option.map_some]

theorem resolveIndex_eq_some_iff {index : Int} {n i : Nat} :
    resolveIndex index n = some i ↔ (n : Int) ≤ Word.greatest ∧ i < n ∧ (index = i ∨ index = i - n) := by
  unfold resolveIndex
  by_cases long : Word.greatest < n
  · rw [if_pos long]
    exact iff_of_false (by simp) fun short => by omega
  rw [if_neg long]
  by_cases negative : index < 0
  · simp only [if_pos negative,Option.ite_none_right_eq_some,Option.some_inj]
    omega
  · simp only [if_neg negative,Option.ite_none_right_eq_some,Option.some_inj]
    omega

/-- No sequence is so long that the nearest word names an element which the integer itself does not. -/
theorem resolveIndex_clamp {k : Int} {n i : Nat} (addressable : (n : Int) ≤ Word.greatest) :
    resolveIndex (Word.clamp k) n = some i ↔ i < n ∧ (k = i ∨ k = i - n) := by
  rw [resolveIndex_eq_some_iff]
  unfold Word.clamp Word.least Word.greatest at *
  omega

theorem resolveIndex_clamp_none {k : Int} {n : Nat} (addressable : (n : Int) ≤ Word.greatest) :
    resolveIndex (Word.clamp k) n = none ↔ k < -n ∨ n ≤ k := by
  have found := fun i => @resolveIndex_clamp k n i addressable
  cases resolved : resolveIndex (Word.clamp k) n with
  | none =>
    have front := (found k.toNat).mpr
    have back := (found (n + k).toNat).mpr
    rw [resolved] at front back
    simp only [true_iff]
    by_contra inside
    by_cases negative : k < 0
    · exact nomatch back ⟨by omega,.inr (by omega)⟩
    · exact nomatch front ⟨by omega,.inl (by omega)⟩
  | some i =>
    obtain ⟨below,named⟩ := (found i).mp resolved
    simp only [reduceCtorEq,false_iff]
    omega

/-- A number names an element of `n` by how many stand in front of it, or by how far it is from the end. -/
def Names (n : Nat) (x : Float) (i : Nat) : Prop := i < n ∧ (IsInteger x i ∨ IsInteger x (i - n))

theorem names_iff {n i : Nat} {x : Float} {k : Int} (integer : IsInteger x k) :
    Names n x i ↔ i < n ∧ (k = i ∨ k = i - n) := by
  have iff {l : Int} : IsInteger x l ↔ k = l := ⟨integer.unique,fun same => same ▸ integer⟩
  unfold Names
  rw [iff,iff]

theorem Names.integer {n i : Nat} {x : Float} (names : Names n x i) : ∃ k, IsInteger x k := by
  rcases names.2 with integer | integer
  · exact ⟨_,integer⟩
  · exact ⟨_,integer⟩

theorem Names.unique {n i j : Nat} {x : Float} (first : Names n x i) (second : Names n x j) : i = j := by
  obtain ⟨k,integer⟩ := first.integer
  have front := (names_iff integer).mp first
  have back := (names_iff integer).mp second
  omega

theorem exists_names_iff {n : Nat} {x : Float} : (∃ i, Names n x i) ↔ ∃ k, IsInteger x k ∧ -n ≤ k ∧ k < n := by
  constructor
  · rintro ⟨i,below,integer | integer⟩
    · exact ⟨i,integer,by omega,by omega⟩
    · exact ⟨_,integer,by omega,by omega⟩
  · rintro ⟨k,integer,low,high⟩
    by_cases negative : k < 0
    · exact ⟨(n + k).toNat,(names_iff integer).mpr ⟨by omega,.inr (by omega)⟩⟩
    · exact ⟨k.toNat,(names_iff integer).mpr ⟨by omega,.inl (by omega)⟩⟩

/-- What a number can be to a sequence: the name of an element, another integer, or no integer. -/
theorem named_or (n : Nat) (x : Float) :
    (∃ i, Names n x i) ∨ (∃ k, IsInteger x k ∧ (k < -n ∨ n ≤ k)) ∨ ∀ k, ¬ IsInteger x k := by
  by_cases whole : ∃ k, IsInteger x k
  · obtain ⟨k,integer⟩ := whole
    by_cases beyond : k < -n ∨ n ≤ k
    · exact .inr (.inl ⟨k,integer,beyond⟩)
    · exact .inl (exists_names_iff.mpr ⟨k,integer,by omega,by omega⟩)
  · exact .inr (.inr (not_exists.mp whole))

def characters (text : String) : List Value := text.toList.map fun c => .text c.toString

/-- A value is an array or a text, and these are its elements. -/
inductive Store.Sequence (store : Store) : Value → String → List Value → Prop where
  | array (id : ArrayId) : store.Sequence (.array id) "Array" (store.items id)
  | text (t : String) : store.Sequence (.text t) "String" (characters t)

def pick (kind : String) (elements : List Value) (index : Int) : Except Fault Value :=
  match (resolveIndex index elements.length).bind (elements[·]?) with
  | some a => .ok a
  | none => .error (.indexOutOfRange kind index elements.length)

theorem character_eq (t : String) (index : Int) : Store.character t index = pick "String" (characters t) index := by
  unfold Store.character pick characters
  simp only [List.length_map,List.getElem?_map]
  cases resolveIndex index t.toList.length with
  | none => rfl
  | some i =>
    simp only [Option.bind_some]
    cases t.toList[i]? <;> rfl

theorem Store.Sequence.itemOf {store : Store} {target : Value} {kind : String} {elements : List Value}
    (sequence : store.Sequence target kind elements) (position : Value) :
    store.itemOf target position = positionOf position >>= pick kind elements := by
  cases sequence with
  | array id => rfl
  | text t =>
    have picked : Store.character t = pick "String" (characters t) := funext fun index => character_eq t index
    unfold Store.itemOf
    rw [← picked]

theorem positionOf_integer {x : Float} {k : Int} (integer : IsInteger x k) :
    positionOf (.number x) = .ok (Word.clamp k) := by
  have found : (Value.number x).number?.bind Decimal.integer? = some k := integer?_eq_some_iff.mpr integer
  unfold positionOf
  rw [found]

theorem positionOf_ragged {x : Float} (ragged : ∀ k, ¬ IsInteger x k) :
    positionOf (.number x) = .error (.typeError "Indexes must be integer numbers.") := by
  have none : (Value.number x).number?.bind Decimal.integer? = none := by
    refine Option.eq_none_iff_forall_ne_some.mpr fun k found => ragged k ?_
    exact integer?_eq_some_iff.mp found
  unfold positionOf
  rw [none]

/-- What a sequence answers for a number: the element that the number names, or what is wrong with the number. -/
structure Answers (kind : String) (elements : List Value) (x : Float) (result : Except Fault Value) : Prop where
  found : (∃ a, result = .ok a) ↔ ∃ k, IsInteger x k ∧ -elements.length ≤ k ∧ k < elements.length
  element : ∀ {i}, Names elements.length x i → ∃ a, elements[i]? = some a ∧ result = .ok a
  outside : ∀ {k}, IsInteger x k → k < -elements.length ∨ elements.length ≤ k →
    result = .error (.indexOutOfRange kind (Word.clamp k) elements.length)
  ragged : (∀ k, ¬ IsInteger x k) → result = .error (.typeError "Indexes must be integer numbers.")

section
variable {store : Store} {target : Value} {kind : String} {elements : List Value} {x : Float}

theorem itemOf_names (sequence : store.Sequence target kind elements)
    (addressable : (elements.length : Int) ≤ Word.greatest) {i : Nat} (names : Names elements.length x i) :
    ∃ a, elements[i]? = some a ∧ store.itemOf target (.number x) = .ok a := by
  obtain ⟨k,integer⟩ := names.integer
  have resolved := (resolveIndex_clamp addressable).mpr ((names_iff integer).mp names)
  have there := List.getElem?_eq_getElem names.1
  refine ⟨_,there,?_⟩
  rw [sequence.itemOf,positionOf_integer integer]
  change pick kind elements (Word.clamp k) = _
  unfold pick
  rw [resolved,Option.bind_some,there]

theorem itemOf_outside (sequence : store.Sequence target kind elements)
    (addressable : (elements.length : Int) ≤ Word.greatest) {k : Int} (integer : IsInteger x k)
    (beyond : k < -elements.length ∨ elements.length ≤ k) :
    store.itemOf target (.number x) = .error (.indexOutOfRange kind (Word.clamp k) elements.length) := by
  rw [sequence.itemOf,positionOf_integer integer]
  change pick kind elements (Word.clamp k) = _
  unfold pick
  rw [(resolveIndex_clamp_none addressable).mpr beyond,Option.bind_none]

theorem itemOf_ragged (sequence : store.Sequence target kind elements) (ragged : ∀ k, ¬ IsInteger x k) :
    store.itemOf target (.number x) = .error (.typeError "Indexes must be integer numbers.") := by
  rw [sequence.itemOf,positionOf_ragged ragged]
  rfl

theorem answers (sequence : store.Sequence target kind elements)
    (addressable : (elements.length : Int) ≤ Word.greatest) (x : Float) :
    Answers kind elements x (store.itemOf target (.number x)) where
  found := by
    rw [← exists_names_iff]
    constructor
    · rintro ⟨a,found⟩
      rcases named_or elements.length x with named | ⟨k,integer,beyond⟩ | ragged
      · exact named
      · cases (itemOf_outside sequence addressable integer beyond).symm.trans found
      · cases (itemOf_ragged sequence ragged).symm.trans found
    · rintro ⟨i,names⟩
      obtain ⟨a,_,found⟩ := itemOf_names sequence addressable names
      exact ⟨a,found⟩
  element names := itemOf_names sequence addressable names
  outside integer beyond := itemOf_outside sequence addressable integer beyond
  ragged ragged := itemOf_ragged sequence ragged

end

/-- A result of the store as that of an expression, which a fault interrupts at the place of the expression. -/
def resultAt (span : Span) (result : Except Fault Value) : Except Interruption Value :=
  result.mapError fun fault => .failed { fault := fault, span := some span }

/-- Once both parts of an index expression are values, it comes to what the store finds. -/
theorem ends_index {invoke : Invoke} {target position : Expr} {a b : Value} {u v w : World}
    (first : (target.eval invoke u).Ends (.ok a) v) (second : (position.eval invoke v).Ends (.ok b) w) (span : Span) :
    ((Expr.index target position span).eval invoke u).Ends (resultAt span (w.store.itemOf a b)) w := by
  have parts : (Expr.index target position span).eval invoke u =
      ((target.eval invoke u).andThen fun a v =>
        (position.eval invoke v).andThen fun b w => Script.inquire (·.itemOf a b) w).locate span := by
    rw [Expr.eval]
    rfl
  have looked : (Script.inquire (·.itemOf a b) w).Ends
      ((w.store.itemOf a b).mapError fun fault => .failed { fault := fault }) w := by
    unfold Script.inquire Script.ofAction
    rw [Action.run_inquire]
    cases w.store.itemOf a b <;> exact .done _ _
  have behind := (Run.ends_andThen _ (fun b w => Script.inquire (·.itemOf a b) w) _ _).mpr (.inl ⟨b,w,second,looked⟩)
  have whole := (Run.ends_andThen _ (fun a v => (position.eval invoke v).andThen fun b w =>
    Script.inquire (·.itemOf a b) w) _ _).mpr (.inl ⟨a,v,first,behind⟩)
  rw [parts]
  refine (Run.ends_locate _ _ _ _).mpr ⟨_,whole,?_⟩
  cases w.store.itemOf a b <;> rfl

/-! ### Changes of items -/

theorem Store.items_putItem (store : Store) (id : ArrayId) (i : Nat) (v : Value) :
    (store.putItem id i v).items id = (store.items id).set i v := by
  unfold putItem setItems Store.items
  simp only [Array.getD_eq_getD_getElem?,Array.getElem?_modify,if_true]
  cases store.arrays[id]? <;> simp

theorem Store.items_putItem_other (store : Store) {id other : ArrayId} (apart : other ≠ id) (i : Nat) (v : Value) :
    (store.putItem id i v).items other = store.items other := by
  unfold putItem setItems Store.items
  simp only [Array.getD_eq_getD_getElem?,Array.getElem?_modify,if_neg apart.symm]

/-- What a call of a function of the library gives in a world, and the world behind it. -/
def Builtin.outcome (function : Builtin) (args : List Value) (w : World) : Except Fault Value × World :=
  (function.apply args).run.run w

namespace Builtin

theorem size_outcome {w : World} {target : Value} {kind : String} {elements : List Value}
    (sequence : w.store.Sequence target kind elements) :
    size.outcome [target] w = (.ok (ofCount elements.length),w) := by
  cases sequence with
  | array id => rfl
  | text t =>
    have length : (characters t).length = t.length := by
      unfold characters
      rw [List.length_map,String.length_toList]
    rw [length]
    rfl

theorem get_outcome (id : ArrayId) (position : Value) (w : World) :
    get.outcome [.array id,position] w = (w.store.itemOf (.array id) position,w) :=
  Action.run_inquire (fun store => positionOf position >>= store.item id) w

theorem set_outcome (id : ArrayId) (position v : Value) (w : World) :
    set.outcome [.array id,position,v] w =
      match positionOf position >>= w.store.positionIn id with
      | .ok i => (.ok v,{ w with store := w.store.putItem id i v })
      | .error fault => (.error fault,w) := by
  have asked : set.outcome [.array id,position,v] w =
      (Action.revise (fun store => do store.setItem id (← positionOf position) v) >>= fun _ =>
        pure v).run.run w := rfl
  rw [asked,Action.revise_setItem,bind_assoc,Action.run_bind,Action.run_inquire]
  cases positionOf position >>= w.store.positionIn id <;> rfl

end Builtin

/-- What a change of an item leaves: the new one is read by all its names, all others are what they were, and so
are the size and the other arrays. -/
structure Assigned (id : ArrayId) (x : Float) (v : Value) (w after : World) : Prop where
  size : (after.store.items id).length = (w.store.items id).length
  written : ∀ {i y}, Names (w.store.items id).length x i → Names (w.store.items id).length y i →
    Builtin.get.outcome [.array id,.number y] after = (.ok v,after)
  kept : ∀ {y}, (∀ i, Names (w.store.items id).length x i → ¬ Names (w.store.items id).length y i) →
    Builtin.get.outcome [.array id,.number y] after = ((Builtin.get.outcome [.array id,.number y] w).1,after)
  others : ∀ {other}, other ≠ id → after.store.items other = w.store.items other

section
variable {store : Store} {id : ArrayId}

theorem itemOf_array (position : Value) : store.itemOf (.array id) position =
    (positionOf position >>= store.positionIn id).map ((store.items id).getD · .null) := by
  have item (index : Int) :
      store.item id index = (store.positionIn id index).map ((store.items id).getD · .null) := by
    unfold Store.item Store.positionIn
    cases resolved : resolveIndex index (store.items id).length with
    | none => simp only [resolved,Option.bind_none,Except.map]
    | some i =>
      have there := List.getElem?_eq_getElem (resolveIndex_eq_some_iff.mp resolved).2.1
      simp only [resolved,Option.bind_some,there,Except.map,List.getD_eq_getElem?_getD,Option.getD_some]
  change (positionOf position >>= store.item id) = _
  rw [funext item]
  cases positionOf position <;> rfl

theorem positionIn_names (addressable : ((store.items id).length : Int) ≤ Word.greatest) {x : Float} {i : Nat}
    (names : Names (store.items id).length x i) :
    positionOf (.number x) >>= store.positionIn id = .ok i := by
  obtain ⟨k,integer⟩ := names.integer
  have resolved := (resolveIndex_clamp addressable).mpr ((names_iff integer).mp names)
  rw [positionOf_integer integer]
  change store.positionIn id (Word.clamp k) = _
  simp only [Store.positionIn,resolved]

end

theorem assigned {w : World} {id : ArrayId} (addressable : ((w.store.items id).length : Int) ≤ Word.greatest)
    {x : Float} {i : Nat} (names : Names (w.store.items id).length x i) (v : Value) :
    Assigned id x v w { w with store := w.store.putItem id i v } := by
  have items := w.store.items_putItem id i v
  have size : ((w.store.putItem id i v).items id).length = (w.store.items id).length := by
    rw [items,List.length_set]
  have still : (((w.store.putItem id i v).items id).length : Int) ≤ Word.greatest := size ▸ addressable
  have read := answers (.array id : (w.store.putItem id i v).Sequence _ _ _) still
  have before := answers (.array id : w.store.Sequence _ _ _) addressable
  refine ⟨size,fun {j y} first second => ?_,fun {y} apart => ?_,fun other => Store.items_putItem_other _ other i v⟩
  · cases first.unique names
    rw [Builtin.get_outcome]
    obtain ⟨a,there,found⟩ := (read y).element (size ▸ second)
    rw [items,List.getElem?_set_self names.1,Option.some_inj] at there
    rw [found,there]
  · rw [Builtin.get_outcome,Builtin.get_outcome]
    rcases named_or (w.store.items id).length y with ⟨j,second⟩ | ⟨k,integer,beyond⟩ | ragged
    · have differ : i ≠ j := fun same => apart i names (same ▸ second)
      obtain ⟨a,there,found⟩ := (read y).element (size ▸ second)
      obtain ⟨b,past,first⟩ := (before y).element second
      rw [items,List.getElem?_set_ne differ,past,Option.some_inj] at there
      rw [found,first,there]
    · rw [(before y).outside integer beyond,(read y).outside integer (size ▸ beyond),size]
    · rw [(before y).ragged ragged,(read y).ragged ragged]

/-- A sequence is read by signed positions in index expressions, and arrays are read and changed by the same in
calls. -/
structure Indexed (w : World) (target : Value) (kind : String) (elements : List Value) : Prop where
  size : Builtin.size.outcome [target] w = (.ok (Builtin.ofCount elements.length),w)
  /-- An index expression whose parts have come to the sequence and a number gives the answer, and so does a call. -/
  read : ∀ x, ∃ result, Answers kind elements x result ∧
    (∀ {invoke : Invoke} {t p : Expr} {u v : World}, (t.eval invoke u).Ends (.ok target) v →
      (p.eval invoke v).Ends (.ok (.number x)) w → ∀ span,
        ((Expr.index t p span).eval invoke u).Ends (resultAt span result) w) ∧
    ∀ id, target = .array id → Builtin.get.outcome [target,.number x] w = (result,w)
  /-- An item is changed under each of its names. -/
  changed : ∀ {id}, target = .array id → ∀ {x i}, Names elements.length x i → ∀ v, ∃ after,
    Builtin.set.outcome [target,.number x,v] w = (.ok v,after) ∧ Assigned id x v w after
  /-- A change fails for the numbers that name no item, as reading does. -/
  refused : ∀ {id}, target = .array id → ∀ {x fault}, Builtin.get.outcome [target,.number x] w = (.error fault,w) →
    ∀ v, Builtin.set.outcome [target,.number x,v] w = (.error fault,w)
  /-- Whatever it is given, a change that fails changes nothing. -/
  harmless : ∀ {args fault after}, Builtin.set.outcome args w = (.error fault,after) → after = w

theorem indexed {w : World} {target : Value} {kind : String} {elements : List Value}
    (sequence : w.store.Sequence target kind elements) (addressable : (elements.length : Int) ≤ Word.greatest) :
    Indexed w target kind elements where
  size := Builtin.size_outcome sequence
  read x := by
    refine ⟨_,answers sequence addressable x,fun first second span => ends_index first second span,?_⟩
    rintro id rfl
    exact Builtin.get_outcome id _ w
  changed := by
    rintro id rfl x i names v
    cases sequence
    refine ⟨_,?_,assigned addressable names v⟩
    rw [Builtin.set_outcome,positionIn_names addressable names]
  refused := by
    rintro id rfl x fault failed v
    rw [Builtin.get_outcome,itemOf_array] at failed
    rw [Builtin.set_outcome]
    cases placed : positionOf (.number x) >>= w.store.positionIn id with
    | ok i =>
      rw [placed] at failed
      cases failed
    | error other =>
      rw [placed] at failed
      cases failed
      rfl
  harmless failed := Builtin.guarded_apply (by decide) _ _ _ _ failed

/-- Signed positions are exact for every number and every sequence that they can address, and no sum of words
overflows for any sequence at all. -/
theorem signed_positions_exact :
    (∀ {index : Int}, Word.fits index → ∀ length, resolveWord? index length = some (resolveIndex index length)) ∧
      ∀ {w : World} {target : Value} {kind : String} {elements : List Value},
        w.store.Sequence target kind elements → (elements.length : Int) ≤ Word.greatest →
          Indexed w target kind elements :=
  ⟨fun word length => resolveWord?_eq word length,fun sequence addressable => indexed sequence addressable⟩

/-- The last item of three is changed under the name that counts from the end. -/
theorem signed_positions_exact_last :
    let items : List Value := [.number 1.0,.null,.bool true]
    let w : World := { sprite := Turtle.Sprite.ofConfig {}, store := { arrays := #[items] } }
    Word.fits (-3) = true ∧ resolveWord? (-3) 2 = some (resolveIndex (-3) 2) ∧
      w.store.Sequence (.array 0) "Array" items ∧ (items.length : Int) ≤ Word.greatest ∧
      Names items.length (-1.0) 2 ∧
      ∃ after, Builtin.set.outcome [.array 0,.number (-1.0),.text "x"] w = (.ok (.text "x"),after) ∧
        Builtin.get.outcome [.array 0,.number 2.0] after = (.ok (.text "x"),after) := by
  intro items w
  have sequence : w.store.Sequence (.array 0) "Array" items := .array 0
  have addressable : (items.length : Int) ≤ Word.greatest := by decide
  have back : Names items.length (-1.0) 2 := ⟨by decide,.inr (integer?_eq_some_iff.mp (by decide))⟩
  have front : Names items.length 2.0 2 := ⟨by decide,.inl (integer?_eq_some_iff.mp (by decide))⟩
  obtain ⟨after,changed,assigned⟩ := (signed_positions_exact.2 sequence addressable).changed rfl back (.text "x")
  exact ⟨by decide,signed_positions_exact.1 (by decide) 2,sequence,addressable,back,after,changed,
    assigned.written back front⟩

end TurtleScript
