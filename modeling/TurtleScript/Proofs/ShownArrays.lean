import TurtleScript.Store.Text
import Mathlib.Data.List.Chain

/-!
How deep arrays are shown. A store is a graph that may be shared and cyclic, and a value in it unfolds to a tree, from
which everything at some depth can be left out (`Unfolds`). What is shown of a value is the text of its unfolding
without the arrays inside sixteen others; where no chain of arrays is longer than that, nothing is left out
(`shown_cut_off`). Both are one statement about unfoldings that end in time (`unfolds_iff`).
-/

namespace TurtleScript

def Value.isArray : Value → Bool
  | .array _ => true
  | _ => false

/-- A value by itself as a text, for a way of writing numbers. An array by itself is cut short. -/
def Value.lettered (numeral : Float → String) : Value → String
  | .number x => numeral x
  | .text t => t
  | .bool b => if b then "true" else "false"
  | .null => "null"
  | .function f => s!"<function {f.name}>"
  | .array _ => "[...]"

namespace Store

/-- What `shownWithin` is for other ways of writing numbers. -/
def writtenWithin (numeral : Float → String) (store : Store) : Nat → Value → String
  | n + 1, .array id => "[" ++ String.intercalate ", " ((store.items id).map (store.writtenWithin numeral n)) ++ "]"
  | _, a => a.lettered numeral

/-- A value as it is shown, for a way of writing numbers. -/
def written (numeral : Float → String) (store : Store) (a : Value) : String :=
  store.writtenWithin numeral shownNesting a

theorem shownWithin_eq (store : Store) (n : Nat) (a : Value) :
    store.shownWithin n a = store.writtenWithin Decimal.plain n a := by
  induction n generalizing a with
  | zero => cases a <;> rfl
  | succ n ih =>
    cases a with
    | array id => rw [shownWithin,writtenWithin,funext ih]
    | _ => rfl

theorem writtenWithin_single {numeral : Float → String} {store : Store} {n : Nat} {a : Value}
    (single : a.isArray = false) : store.writtenWithin numeral n a = a.lettered numeral := by
  cases a with
  | array id => cases single
  | _ => simp only [writtenWithin]

theorem shown_eq (store : Store) (a : Value) : store.shown a = store.written Decimal.plain a :=
  store.shownWithin_eq shownNesting a

end Store

/-- A tree of values by themselves, in which arrays may be left out. -/
inductive Unfolding where
  | leaf (a : Value)
  | omitted
  | array (items : List Unfolding)

/-- An unfolding as a text. -/
def Unfolding.text (numeral : Float → String) : Unfolding → String
  | .leaf a => a.lettered numeral
  | .omitted => "[...]"
  | .array items => "[" ++ String.intercalate ", " (items.map (Unfolding.text numeral)) ++ "]"

namespace Store

mutual

/-- A value inside some number of arrays unfolds to a tree: everything in an array unfolds, unless arrays inside so
many others are left out. -/
inductive Unfolds (store : Store) (omits : Nat → Prop) : Nat → Value → Unfolding → Prop where
  | leaf {d : Nat} {a : Value} (single : a.isArray = false) : Unfolds store omits d a (.leaf a)
  | omitted {d : Nat} {id : ArrayId} (left : omits d) : Unfolds store omits d (.array id) .omitted
  | array {d : Nat} {id : ArrayId} {trees : List Unfolding} (shown : ¬ omits d)
      (each : UnfoldsAll store omits (d + 1) (store.items id) trees) : Unfolds store omits d (.array id) (.array trees)

/-- Values unfold to trees, one by one. -/
inductive UnfoldsAll (store : Store) (omits : Nat → Prop) : Nat → List Value → List Unfolding → Prop where
  | nil {d : Nat} : UnfoldsAll store omits d [] []
  | cons {d : Nat} {a : Value} {tree : Unfolding} {values : List Value} {trees : List Unfolding}
      (first : Unfolds store omits d a tree) (rest : UnfoldsAll store omits d values trees) :
      UnfoldsAll store omits d (a :: values) (tree :: trees)

end

def Contains (store : Store) (outer inner : ArrayId) : Prop := .array inner ∈ store.items outer

/-- No chain of nested arrays that begins with the value itself has more than `n` arrays. -/
def NestedWithin (store : Store) (n : Nat) (a : Value) : Prop :=
  ∀ id chain, a = .array id → (id :: chain).IsChain store.Contains → (id :: chain).length ≤ n

variable {store : Store}

theorem not_nestedWithin_zero (id : ArrayId) : ¬ store.NestedWithin 0 (.array id) := by
  intro within
  have short := within id [] rfl (.singleton id)
  simp at short

/-- Arrays nested within a bound hold only such as are nested within a lower one. -/
theorem NestedWithin.item {n : Nat} {id : ArrayId} (within : store.NestedWithin (n + 1) (.array id)) {a : Value}
    (mem : a ∈ store.items id) : store.NestedWithin n a := by
  rintro inner chain rfl linked
  have longer := within id (inner :: chain) rfl (.cons_cons mem linked)
  simp only [List.length_cons] at longer ⊢
  omega

theorem nestedWithin_array {n : Nat} {id : ArrayId} (each : ∀ a ∈ store.items id, store.NestedWithin n a) :
    store.NestedWithin (n + 1) (.array id) := by
  rintro id chain ⟨⟩ linked
  cases chain with
  | nil => simp
  | cons inner chain =>
    obtain ⟨mem,rest⟩ := List.isChain_cons_cons.mp linked
    have shorter := each _ mem inner chain rfl rest
    simp only [List.length_cons] at shorter ⊢
    omega

theorem nestedWithin_single {n : Nat} {a : Value} (single : a.isArray = false) : store.NestedWithin n a := by
  rintro id chain rfl
  cases single

/-- The unfolding of a value without the arrays inside `n` others. -/
def cut (store : Store) : Nat → Value → Unfolding
  | n + 1, .array id => .array ((store.items id).map (store.cut n))
  | 0, .array _ => .omitted
  | _, a => .leaf a

theorem text_cut (numeral : Float → String) (store : Store) (n : Nat) (a : Value) :
    (store.cut n a).text numeral = store.writtenWithin numeral n a := by
  induction n generalizing a with
  | zero => cases a <;> simp only [cut,Unfolding.text,writtenWithin,Value.lettered]
  | succ n ih =>
    cases a with
    | array id =>
      have each : (Unfolding.text numeral ∘ store.cut n) = store.writtenWithin numeral n := funext ih
      rw [cut,Unfolding.text,writtenWithin,List.map_map,each]
    | _ => simp only [cut,Unfolding.text,writtenWithin]

theorem unfoldsAll_iff {omits : Nat → Prop} {n d : Nat} {values : List Value}
    (each : ∀ a ∈ values, ∀ tree, store.Unfolds omits d a tree ↔ tree = store.cut n a) (trees : List Unfolding) :
    store.UnfoldsAll omits d values trees ↔ trees = values.map (store.cut n) := by
  induction values generalizing trees with
  | nil =>
    constructor
    · rintro ⟨⟩
      rfl
    · rintro rfl
      exact .nil
  | cons a values ih =>
    have rest := ih fun b mem => each b (.tail _ mem)
    constructor
    · rintro (_ | ⟨first,others⟩)
      rw [List.map_cons,← (each a (.head _) _).mp first,← (rest _).mp others]
    · rintro rfl
      exact .cons ((each a (.head _) _).mpr rfl) ((rest _).mpr rfl)

/-- A value has one unfolding if arrays are left out from some depth on, or if there are none so deep. -/
theorem unfolds_iff {omits : Nat → Prop} {n d : Nat} {a : Value} (shows : ∀ k < n, ¬ omits (d + k))
    (ends : omits (d + n) ∨ store.NestedWithin n a) (tree : Unfolding) :
    store.Unfolds omits d a tree ↔ tree = store.cut n a := by
  induction n generalizing d a tree with
  | zero =>
    cases a with
    | array id =>
      have left : omits d := ends.resolve_right (not_nestedWithin_zero id)
      constructor
      · intro unfolds
        cases unfolds with
        | leaf single => cases single
        | omitted => rfl
        | array shown => exact absurd left shown
      · rintro rfl
        exact .omitted left
    | _ =>
      constructor
      · rintro ⟨⟩
        rfl
      · rintro rfl
        exact .leaf rfl
  | succ n ih =>
    cases a with
    | array id =>
      have shown : ¬ omits d := shows 0 n.succ_pos
      have deeper : ∀ k < n, ¬ omits (d + 1 + k) := by
        intro k below
        have there := shows (k + 1) (by omega)
        rwa [show d + (k + 1) = d + 1 + k by omega] at there
      have each : ∀ b ∈ store.items id, ∀ tree, store.Unfolds omits (d + 1) b tree ↔ tree = store.cut n b := by
        intro b mem
        refine ih deeper ?_
        rcases ends with left | within
        · left
          rwa [show d + (n + 1) = d + 1 + n by omega] at left
        · exact .inr (within.item mem)
      constructor
      · intro unfolds
        cases unfolds with
        | leaf single => cases single
        | omitted left => exact absurd left shown
        | array _ items => rw [cut,(unfoldsAll_iff each _).mp items]
      · rintro rfl
        exact .array shown ((unfoldsAll_iff each _).mpr rfl)
    | _ =>
      constructor
      · rintro ⟨⟩
        rfl
      · rintro rfl
        exact .leaf rfl

/-! ### What is shown -/

/-- The value at the end of a path of positions in nested arrays. -/
def met (store : Store) : Value → List Nat → Option Value
  | a, [] => some a
  | .array id, i :: path => ((store.items id)[i]?).bind fun b => store.met b path
  | _, _ :: _ => none

end Store

/-- A value with all arrays alike. -/
def Value.bare : Value → Value
  | .array _ => .array 0
  | a => a

theorem Value.lettered_bare (numeral : Float → String) (a : Value) : a.bare.lettered numeral = a.lettered numeral := by
  cases a <;> rfl

theorem Value.bare_eq {a a' : Value} (same : a.bare = a'.bare) :
    (a.isArray = false ∧ a = a') ∨ ∃ id id', a = .array id ∧ a' = .array id' := by
  cases a <;> cases a' <;> simp_all [Value.bare,Value.isArray]

/-- Two values, each in its store, cannot be told apart inside `n` arrays: they lead to the same along all paths. -/
def AlikeWithin (n : Nat) (store : Store) (a : Value) (store' : Store) (a' : Value) : Prop :=
  ∀ path : List Nat, path.length ≤ n → (store.met a path).map Value.bare = (store'.met a' path).map Value.bare

namespace AlikeWithin

variable {n : Nat} {store store' : Store}

theorem bare {a a' : Value} (alike : AlikeWithin n store a store' a') : a.bare = a'.bare := by
  have root := alike [] (Nat.zero_le n)
  simpa [Store.met] using root

/-- What stands at the same place in two arrays is alike, if there is something at all. -/
theorem item {id id' : ArrayId} (alike : AlikeWithin (n + 1) store (.array id) store' (.array id')) (i : Nat) :
    ((store.items id)[i]? = none ∧ (store'.items id')[i]? = none) ∨
      ∃ b b', (store.items id)[i]? = some b ∧ (store'.items id')[i]? = some b' ∧ AlikeWithin n store b store' b' := by
  have below : ∀ path : List Nat, path.length ≤ n →
      ((store.items id)[i]?.bind fun b => store.met b path).map Value.bare =
        ((store'.items id')[i]?.bind fun b => store'.met b path).map Value.bare :=
    fun path short => alike (i :: path) (Nat.succ_le_succ short)
  have first := below [] (Nat.zero_le n)
  cases left : (store.items id)[i]? with
  | none =>
    cases right : (store'.items id')[i]? with
    | none => exact .inl ⟨rfl,rfl⟩
    | some b' => simp [left,right,Store.met] at first
  | some b =>
    cases right : (store'.items id')[i]? with
    | none => simp [left,right,Store.met] at first
    | some b' =>
      refine .inr ⟨b,b',rfl,rfl,fun path short => ?_⟩
      have there := below path short
      rwa [left,right] at there

/-- Values that are alike inside `n` arrays are shown alike if no more are shown. -/
theorem written {a a' : Value} (alike : AlikeWithin n store a store' a') (numeral : Float → String) :
    store'.writtenWithin numeral n a' = store.writtenWithin numeral n a := by
  induction n generalizing a a' with
  | zero =>
    have single (store : Store) (a : Value) : store.writtenWithin numeral 0 a = a.bare.lettered numeral := by
      rw [Store.writtenWithin,Value.lettered_bare]
      simp
    rw [single,single,alike.bare]
  | succ n ih =>
    rcases Value.bare_eq alike.bare with ⟨single,rfl⟩ | ⟨id,id',rfl,rfl⟩
    · rw [Store.writtenWithin_single single,Store.writtenWithin_single single]
    · have items : (store'.items id').map (store'.writtenWithin numeral n) =
          (store.items id).map (store.writtenWithin numeral n) := by
        refine List.ext_getElem? fun i => ?_
        rw [List.getElem?_map,List.getElem?_map]
        rcases alike.item i with ⟨left,right⟩ | ⟨b,b',left,right,same⟩
        · rw [left,right]
          rfl
        · rw [left,right,Option.map_some,Option.map_some,ih same]
      rw [Store.writtenWithin,Store.writtenWithin,items]

end AlikeWithin

/-- What is shown of a value is its plain unfolding where no chain of arrays has more than sixteen, and always the
unfolding without the arrays inside sixteen others. Nothing further inside makes a difference. -/
theorem shown_cut_off (numeral : Float → String) (store : Store) (a : Value) :
    (store.NestedWithin 16 a → ∀ text,
      (∃ tree, store.Unfolds (fun _ => False) 0 a tree ∧ tree.text numeral = text) ↔ text = store.written numeral a) ∧
    (∃ tree, (∀ other, store.Unfolds (16 ≤ ·) 0 a other ↔ other = tree) ∧
      tree.text numeral = store.written numeral a) ∧
    (∀ {store' : Store} {a' : Value}, AlikeWithin 16 store a store' a' →
      store'.written numeral a' = store.written numeral a) ∧
    store.shown a = store.written Decimal.plain a := by
  have shown : (store.cut 16 a).text numeral = store.written numeral a := store.text_cut numeral 16 a
  refine ⟨fun within text => ?_,⟨store.cut 16 a,?_,shown⟩,fun alike => alike.written numeral,store.shown_eq a⟩
  · have unfolds := @Store.unfolds_iff store (fun _ => False) 16 0 a (fun _ _ => id) (.inr within)
    constructor
    · rintro ⟨tree,unfolded,rfl⟩
      rw [(unfolds tree).mp unfolded,shown]
    · rintro rfl
      exact ⟨_,(unfolds _).mpr rfl,shown⟩
  · exact Store.unfolds_iff (fun k below => by omega) (.inl (by omega))

/-- Two arrays that hold the same, one array in them: nothing is left out, and they are shown alike. -/
theorem shown_cut_off_shallow :
    let store : Store := { arrays := #[[.array 1,.text "x"],[.null],[.array 1,.text "x"]] }
    store.NestedWithin 16 (.array 0) ∧ AlikeWithin 16 store (.array 0) store (.array 2) ∧
      (∃ tree, store.Unfolds (fun _ => False) 0 (.array 0) tree ∧ tree.text Decimal.plain = "[[null], x]") ∧
      store.written Decimal.plain (.array 2) = store.written Decimal.plain (.array 0) := by
  intro store
  have inner : store.NestedWithin 15 (.array 1) := by
    refine Store.nestedWithin_array fun a mem => ?_
    cases List.mem_singleton.mp mem
    exact Store.nestedWithin_single rfl
  have within : store.NestedWithin 16 (.array 0) := by
    refine Store.nestedWithin_array fun a mem => ?_
    rcases List.mem_pair.mp mem with rfl | rfl
    · exact inner
    · exact Store.nestedWithin_single rfl
  have alike : AlikeWithin 16 store (.array 0) store (.array 2) := by
    rintro (_ | ⟨i,path⟩) _
    · rfl
    · rfl
  obtain ⟨plain,_,same,_⟩ := shown_cut_off Decimal.plain store (.array 0)
  exact ⟨within,alike,(plain within _).mpr (by decide),same alike⟩

/-- An array that holds itself is shown sixteen times. -/
example : Store.shown { arrays := #[[.array 0]] } (.array 0) = "[[[[[[[[[[[[[[[[[...]]]]]]]]]]]]]]]]]" := by decide

end TurtleScript
