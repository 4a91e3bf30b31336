import TurtleScript.Proofs.LexicalScopes

/-!
Forests of scopes. Scopes that are made one by one, each inside an older one or inside none (`Store.Layered`), form a
forest. There a name is looked up from a scope outwards, one step after the other (`Layered.get_eq`), and the first
scope on the way that binds it holds its nearest binding (`Store.Nearest`, `Layered.holder?_eq_some_iff`).
-/

namespace TurtleScript.Store

def parent? (store : Store) (id : FrameId) : Option FrameId := (store.frame id).outer.head?

def ancestor? (store : Store) (id : FrameId) : Nat → Option FrameId
  | 0 => some id
  | n + 1 => (store.parent? id).bind fun parent => store.ancestor? parent n

/-- Whoever goes outwards from the one scope comes to the other, and to no binding of the name in front of it. -/
inductive Leads (store : Store) (name : String) : FrameId → FrameId → Prop where
  | here (id : FrameId) : Leads store name id id
  | outward {inner parent id : FrameId} (free : (store.frame inner).find? name = none)
      (around : store.parent? inner = some parent) (further : Leads store name parent id) : Leads store name inner id

/-- The nearest binding of the name, from the one scope outwards, is in the other. -/
def Nearest (store : Store) (name : String) (inner holder : FrameId) : Prop :=
  store.Leads name inner holder ∧ ∃ b, (store.frame holder).find? name = some b

/-- Every scope was made inside an older one, or inside none. -/
def Layered (store : Store) : Prop :=
  ∀ id, (store.frame id).outer = [] ∨ ∃ parent < id, (store.frame id).outer = store.chain parent

variable {store later : Store} {id parent : FrameId} {name : String}

theorem frame_of_size_le (beyond : store.frames.size ≤ id) : store.frame id = {} := by
  unfold frame
  rw [Array.getD_eq_getD_getElem?,Array.getElem?_eq_none beyond]
  rfl

theorem ancestor?_succ (around : store.parent? id = some parent) (n : Nat) :
    store.ancestor? id (n + 1) = store.ancestor? parent n := by
  rw [ancestor?,around]
  rfl

theorem Leads.ancestor (leads : store.Leads name parent id) : ∃ n, store.ancestor? parent n = some id := by
  induction leads with
  | here id => exact ⟨0,rfl⟩
  | outward _ around _ ih =>
    obtain ⟨n,onwards⟩ := ih
    exact ⟨n + 1,(ancestor?_succ around n).trans onwards⟩

theorem free_of_definable (definable : store.definable id name = .ok ()) : (store.frame id).find? name = none := by
  unfold Store.definable at definable
  split at definable
  · cases definable
  · split at definable
    · cases definable
    case isFalse unbound => exact Option.not_isSome_iff_eq_none.mp unbound

theorem Scoped.layered (scopes : store.Scoped) : store.Layered := by
  intro id
  by_cases there : id < store.frames.size
  · by_cases outermost : id = global
    · rw [outermost]
      exact .inl scopes.outermost
    · exact .inr (scopes.inner id there outermost)
  · rw [frame_of_size_le (Nat.le_of_not_lt there)]
    exact .inl rfl

namespace Layered

theorem changeFrame (layered : store.Layered) {f : Frame → Frame} (kept : ∀ frame, (f frame).outer = frame.outer) :
    (store.changeFrame id f).Layered := by
  have outer : ∀ other, ((store.changeFrame id f).frame other).outer = (store.frame other).outer := by
    intro other
    rcases store.frame_changeFrame_or id other f with changed | unchanged
    · rw [changed,kept]
    · rw [unchanged]
  intro other
  unfold chain
  rw [outer]
  rcases layered other with outermost | ⟨parent,older,inside⟩
  · exact .inl outermost
  · refine .inr ⟨parent,older,?_⟩
    rw [outer]
    exact inside

theorem push (layered : store.Layered) {outer : List FrameId}
    (inside : outer = [] ∨ ∃ parent < store.frames.size, outer = store.chain parent) :
    Layered { store with frames := store.frames.push { outer := outer } } := by
  let later : Store := { store with frames := store.frames.push { outer := outer } }
  have old : ∀ other, other ≠ store.frames.size → later.frame other = store.frame other := by
    intro other different
    simp only [later,frame,Array.getD_eq_getD_getElem?,Array.getElem?_push,if_neg different]
  have chains : ∀ other < store.frames.size, later.chain other = store.chain other := by
    intro other there
    unfold chain
    rw [old other (Nat.ne_of_lt there)]
  intro other
  by_cases new : other = store.frames.size
  · have made : later.frame other = { outer := outer } := by
      simp [later,frame,Array.getD_eq_getD_getElem?,new]
    show (later.frame other).outer = [] ∨ _
    rw [made]
    rcases inside with outermost | ⟨parent,there,same⟩
    · exact .inl outermost
    · exact .inr ⟨parent,new ▸ there,same.trans (chains parent there).symm⟩
  · show (later.frame other).outer = [] ∨ ∃ parent < other, (later.frame other).outer = later.chain parent
    rw [old other new]
    by_cases there : other < store.frames.size
    · rcases layered other with outermost | ⟨parent,older,same⟩
      · exact .inl outermost
      · exact .inr ⟨parent,older,same.trans (chains parent (Nat.lt_trans older there)).symm⟩
    · rw [frame_of_size_le (Nat.le_of_not_lt there)]
      exact .inl rfl

/-! ### Looking up, step by step -/

theorem parent_lt (layered : store.Layered) (around : store.parent? id = some parent) : parent < id := by
  unfold parent? at around
  rcases layered id with outermost | ⟨other,older,inside⟩
  · rw [outermost] at around
    cases around
  · rw [inside] at around
    cases around
    exact older

theorem chain_getElem? (layered : store.Layered) (id : FrameId) (n : Nat) :
    (store.chain id)[n]? = store.ancestor? id n := by
  induction n generalizing id with
  | zero => rfl
  | succ n ih =>
    unfold chain ancestor? parent?
    rw [List.getElem?_cons_succ]
    rcases layered id with outermost | ⟨parent,_,inside⟩
    · rw [outermost]
      rfl
    · rw [inside,ih parent]
      rfl

theorem ancestor?_le (layered : store.Layered) {n : Nat} {further : FrameId}
    (leads : store.ancestor? id n = some further) : further ≤ id := by
  induction n generalizing id with
  | zero => exact Nat.le_of_eq (Option.some.inj leads).symm
  | succ n ih =>
    obtain ⟨parent,around,onwards⟩ := Option.bind_eq_some_iff.mp leads
    exact Nat.le_trans (ih onwards) (Nat.le_of_lt (layered.parent_lt around))

/-- What a name stands for in a scope is what it stands for in the scope around, unless it is bound there. -/
theorem get_eq (layered : store.Layered) (id : FrameId) (name : String) :
    store.get id name =
      match (store.frame id).find? name with
      | some b => .ok b.value
      | none =>
        match store.parent? id with
        | some parent => store.get parent name
        | none => .error (.undefinedVariable name) := by
  unfold get binding? chain
  rw [List.findSome?_cons]
  cases (store.frame id).find? name with
  | some b => rfl
  | none =>
    unfold parent?
    rcases layered id with outermost | ⟨parent,_,inside⟩
    · rw [outermost]
      rfl
    · rw [inside]
      rfl

/-- The nearest scope that binds a name is the scope itself or that of the scope around. -/
theorem holder?_eq (layered : store.Layered) (id : FrameId) (name : String) :
    store.holder? id name =
      if (store.frame id).binds name then some id
      else (store.parent? id).bind fun parent => store.holder? parent name := by
  unfold holder? chain
  rw [List.find?_cons]
  cases (store.frame id).binds name with
  | true => rfl
  | false =>
    unfold parent?
    rcases layered id with outermost | ⟨parent,_,inside⟩
    · rw [outermost]
      rfl
    · rw [inside]
      rfl

end Layered

theorem nearest_of_bound {holder : FrameId} {b : Binding} (bound : (store.frame id).find? name = some b) :
    store.Nearest name id holder ↔ holder = id := by
  constructor
  · rintro ⟨leads,_⟩
    cases leads with
    | here => rfl
    | outward free =>
      rw [bound] at free
      cases free
  · rintro rfl
    exact ⟨.here _,b,bound⟩

theorem nearest_of_free {holder : FrameId} (free : (store.frame id).find? name = none) :
    store.Nearest name id holder ↔ ∃ parent, store.parent? id = some parent ∧ store.Nearest name parent holder := by
  constructor
  · rintro ⟨leads,b,bound⟩
    cases leads with
    | here =>
      rw [free] at bound
      cases bound
    | outward _ around further => exact ⟨_,around,further,b,bound⟩
  · rintro ⟨parent,around,further,bound⟩
    exact ⟨.outward free around further,bound⟩

theorem Layered.get_eq_ok_iff (layered : store.Layered) {value : Value} : store.get id name = .ok value ↔
    ∃ holder b, store.Nearest name id holder ∧ (store.frame holder).find? name = some b ∧ b.value = value := by
  induction id using Nat.strong_induction_on with
  | h id ih =>
    rw [layered.get_eq id name]
    cases found : (store.frame id).find? name with
    | some b =>
      simp only [nearest_of_bound found,Except.ok.injEq]
      constructor
      · rintro rfl
        exact ⟨id,b,rfl,found,rfl⟩
      · rintro ⟨_,_,rfl,same,rfl⟩
        rw [found] at same
        cases same
        rfl
    | none =>
      simp only [nearest_of_free found]
      cases around : store.parent? id with
      | none => simp
      | some parent => simpa using ih parent (layered.parent_lt around)

/-- The first scope on the way outwards that binds a name holds its nearest binding. -/
theorem Layered.holder?_eq_some_iff (layered : store.Layered) {holder : FrameId} :
    store.holder? id name = some holder ↔ store.Nearest name id holder := by
  induction id using Nat.strong_induction_on with
  | h id ih =>
    rw [layered.holder?_eq id name]
    unfold Frame.binds
    cases found : (store.frame id).find? name with
    | some b =>
      rw [nearest_of_bound found,Option.isSome_some,if_pos rfl,Option.some.injEq]
      exact eq_comm
    | none =>
      rw [nearest_of_free found,Option.isSome_none,if_neg Bool.false_ne_true,Option.bind_eq_some_iff]
      refine exists_congr fun parent => and_congr_right fun around => ?_
      exact ih parent (layered.parent_lt around)

theorem Layered.nearest_unique (layered : store.Layered) {holder other : FrameId} (first : store.Nearest name id holder)
    (second : store.Nearest name id other) : holder = other := by
  have same := layered.holder?_eq_some_iff.mpr first
  rw [layered.holder?_eq_some_iff.mpr second] at same
  exact (Option.some.inj same).symm

end TurtleScript.Store
