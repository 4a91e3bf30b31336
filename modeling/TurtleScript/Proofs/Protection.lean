import TurtleScript.Proofs.Effects
import TurtleScript.Proofs.Laws

/-!
The names of the library. In a guarded store the global scope binds each of them to what was installed,
no other scope binds any of them, and every scope that a function can be in leads out to the global one.
A guarded store stays guarded whatever a program does (`protection_kept`), because a library name can
neither be bound (`definable_installed`) nor assigned (`assignable_installed`); and in each of its scopes
the name stands for what was installed (`get_installed`).
-/

namespace TurtleScript

/-- What is installed in the global scope before a program begins. -/
def Library.installed (config : Config) : List (String × Value) :=
  Library.standard.entries ++ Library.drawing.entries ++ (Library.screen config).entries

/-- A value whose function, if it is a declared one, is in a scope that there is. -/
def Store.Rooted (store : Store) (a : Value) : Prop :=
  ∀ c, a = .function (.declared c) → c.scope < store.frames.size

/-- A store in which the library is as it was installed. -/
structure Store.Guarded (config : Config) (store : Store) : Prop where
  some_frame : Store.global < store.frames.size
  outermost : (store.frame Store.global).outer = []
  rooted : ∀ id < store.frames.size, id ≠ Store.global → (store.frame id).outer.getLast? = some Store.global
  installed : ∀ {name value}, (name,value) ∈ Library.installed config →
    (store.frame Store.global).find? name = some ⟨name,value,true⟩
  unshadowed : ∀ {name value}, (name,value) ∈ Library.installed config →
    ∀ id ≠ Store.global, (store.frame id).find? name = none
  bound : ∀ id, ∀ b ∈ (store.frame id).bindings, store.Rooted b.value
  items : ∀ id, ∀ a ∈ store.items id, store.Rooted a

namespace Frame

theorem find?_insert_of_ne {frame : Frame} {b : Binding} {name : String} (other : b.name ≠ name) :
    (frame.insert b).find? name = frame.find? name := by
  simp [find?,insert,List.find?_append,other]

theorem find?_assign_of_ne {frame : Frame} {name other : String} (value : Value) (different : other ≠ name) :
    (frame.assign name value).find? other = frame.find? other := by
  unfold find? assign
  induction frame.bindings with
  | nil => rfl
  | cons b bs ih =>
    simp only [List.map_cons,List.find?_cons,ih]
    by_cases changed : b.name = name
    · simp [changed,Ne.symm different]
    · simp [changed]

theorem mem_bindings_of_find? {frame : Frame} {name : String} {b : Binding} (found : frame.find? name = some b) :
    b ∈ frame.bindings ∧ b.name = name := by
  have named := List.find?_some found
  exact ⟨List.mem_of_find?_eq_some found,by simpa using named⟩

end Frame

namespace Store

variable {store : Store}

theorem frame_changeFrame {id : FrameId} (there : id < store.frames.size) (other : FrameId) (f : Frame → Frame) :
    (store.changeFrame id f).frame other = if other = id then f (store.frame other) else store.frame other := by
  unfold frame changeFrame
  simp only [Array.getD_eq_getD_getElem?,Array.getElem?_modify]
  by_cases same : id = other
  · subst same
    simp [there]
  · simp [same,Ne.symm same]

theorem frame_changeFrame_of_ne {id other : FrameId} (different : other ≠ id) (f : Frame → Frame) :
    (store.changeFrame id f).frame other = store.frame other := by
  unfold frame changeFrame
  simp [Array.getD_eq_getD_getElem?,Array.getElem?_modify,Ne.symm different]

@[simp] theorem size_changeFrame (id : FrameId) (f : Frame → Frame) :
    (store.changeFrame id f).frames.size = store.frames.size := by
  simp [changeFrame]

theorem frame_child (parent id : FrameId) :
    (store.child parent).2.frame id =
      if id = store.frames.size then { outer := store.chain parent } else store.frame id := by
  unfold frame child
  simp only [Array.getD_eq_getD_getElem?,Array.getElem?_push]
  by_cases new : id = store.frames.size
  · simp [new]
  · simp [new]

@[simp] theorem size_child (parent : FrameId) : (store.child parent).2.frames.size = store.frames.size + 1 := by
  simp [child]

theorem lt_size_of_find? {id : FrameId} {name : String} {b : Binding}
    (found : (store.frame id).find? name = some b) : id < store.frames.size := by
  by_cases there : id < store.frames.size
  · exact there
  · have empty : store.frame id = {} := by
      unfold frame
      simp [Array.getD_eq_getD_getElem?,there]
    rw [empty] at found
    cases found

theorem items_newArray {other : ArrayId} {items : List Value} {a : Value}
    (mem : a ∈ (store.newArray items).2.items other) : a ∈ items ∨ a ∈ store.items other := by
  unfold Store.items newArray at mem
  simp only [Array.getD_eq_getD_getElem?,Array.getElem?_push] at mem
  by_cases new : other = store.arrays.size
  · simp only [new,if_true,Option.getD_some] at mem
    exact .inl mem
  · simp only [new,if_false] at mem
    exact .inr (by simpa [Store.items,Array.getD_eq_getD_getElem?] using mem)

theorem Rooted.grow {later : Store} {a : Value} (rooted : store.Rooted a)
    (grown : store.frames.size ≤ later.frames.size) : later.Rooted a :=
  fun c same => Nat.lt_of_lt_of_le (rooted c same) grown

namespace Guarded

variable {config : Config} {name : String} {value : Value}

theorem chain_getLast? (guarded : store.Guarded config) {id : FrameId} (there : id < store.frames.size) :
    (store.chain id).getLast? = some global := by
  unfold chain
  by_cases outermost : id = global
  · subst outermost
    rw [guarded.outermost]
    rfl
  · rw [List.getLast?_cons,guarded.rooted id there outermost]
    rfl

theorem rootOf_eq (guarded : store.Guarded config) {id : FrameId} (there : id < store.frames.size) :
    store.rootOf id = global := by
  unfold rootOf
  rw [List.getLastD_eq_getLast?,guarded.chain_getLast? there]
  rfl

/-- Along any way out, the first scope that binds a library name is the global one. -/
theorem holder?_installed (guarded : store.Guarded config) (entry : (name,value) ∈ Library.installed config)
    {id : FrameId} (there : id < store.frames.size) : store.holder? id name = some global := by
  have last : global ∈ store.chain id := List.mem_of_getLast? (guarded.chain_getLast? there)
  have only : ∀ other, (store.frame other).binds name = decide (other = global) := by
    intro other
    unfold Frame.binds
    by_cases same : other = global
    · rw [same,guarded.installed entry]
      rfl
    · rw [guarded.unshadowed entry other same]
      simp [same]
  unfold holder?
  cases found : (store.chain id).find? fun f => (store.frame f).binds name with
  | none =>
    have unbound := List.find?_eq_none.mp found global last
    rw [only] at unbound
    exact absurd (decide_eq_true rfl) unbound
  | some holder =>
    have binds := List.find?_some found
    simp only [only,decide_eq_true_eq] at binds
    rw [binds]

theorem get_installed (guarded : store.Guarded config) (entry : (name,value) ∈ Library.installed config)
    {id : FrameId} (there : id < store.frames.size) : store.get id name = .ok value := by
  have last : global ∈ store.chain id := List.mem_of_getLast? (guarded.chain_getLast? there)
  unfold get binding?
  cases found : (store.chain id).findSome? fun f => (store.frame f).find? name with
  | none =>
    have unbound := List.findSome?_eq_none_iff.mp found global last
    rw [guarded.installed entry] at unbound
    cases unbound
  | some b =>
    obtain ⟨holder,_,bound⟩ := List.exists_of_findSome?_eq_some found
    by_cases same : holder = global
    · rw [same,guarded.installed entry] at bound
      cases bound
      rfl
    · rw [guarded.unshadowed entry holder same] at bound
      cases bound

theorem definable_installed (guarded : store.Guarded config) (entry : (name,value) ∈ Library.installed config)
    {id : FrameId} (there : id < store.frames.size) : store.definable id name = .error (.protectedName name) := by
  unfold definable isProtected
  rw [guarded.rootOf_eq there,guarded.installed entry]
  rfl

theorem assignable_installed (guarded : store.Guarded config) (entry : (name,value) ∈ Library.installed config)
    {id : FrameId} (there : id < store.frames.size) : store.assignable id name = .error (.protectedName name) := by
  unfold assignable
  rw [guarded.holder?_installed entry there]
  simp only [guarded.installed entry]
  rfl

/-- Changing the bindings of one scope, but for the library, leaves the store guarded. -/
theorem changeFrame (guarded : store.Guarded config) {id : FrameId} (there : id < store.frames.size)
    {f : Frame → Frame} (outer : ∀ frame, (f frame).outer = frame.outer)
    (library : ∀ {name value}, (name,value) ∈ Library.installed config →
      ∀ frame, (f frame).find? name = frame.find? name)
    (rooted : ∀ b ∈ (f (store.frame id)).bindings, store.Rooted b.value) :
    (store.changeFrame id f).Guarded config where
  some_frame := by simpa using guarded.some_frame
  outermost := by
    rw [frame_changeFrame there]
    split
    · rw [outer,guarded.outermost]
    · exact guarded.outermost
  rooted other inside inner := by
    rw [size_changeFrame] at inside
    rw [frame_changeFrame there]
    split
    · rw [outer]
      exact guarded.rooted other inside inner
    · exact guarded.rooted other inside inner
  installed entry := by
    rw [frame_changeFrame there]
    split
    · rw [library entry]
      exact guarded.installed entry
    · exact guarded.installed entry
  unshadowed entry other inner := by
    rw [frame_changeFrame there]
    split
    · rw [library entry]
      exact guarded.unshadowed entry other inner
    · exact guarded.unshadowed entry other inner
  bound other b mem := by
    rw [frame_changeFrame there] at mem
    have before : store.Rooted b.value := by
      split at mem
      case isTrue same =>
        subst same
        exact rooted b mem
      case isFalse => exact guarded.bound other b mem
    exact before.grow (by simp)
  items other a mem := Rooted.grow (guarded.items other a mem) (by simp)

theorem bind (guarded : store.Guarded config) {id : FrameId} (there : id < store.frames.size)
    (free : store.definable id name = .ok ()) (rooted : store.Rooted value) :
    (store.bind id { name := name, value := value }).Guarded config := by
  refine guarded.changeFrame there (fun _ => rfl) (fun {installed _} entry frame => ?_) fun b mem => ?_
  · refine Frame.find?_insert_of_ne fun same => ?_
    simp only at same
    subst same
    rw [guarded.definable_installed entry there] at free
    cases free
  · rcases List.mem_append.mp mem with old | new
    · exact guarded.bound id b old
    · rw [List.mem_singleton.mp new]
      exact rooted

theorem put (guarded : store.Guarded config) {id holder : FrameId} (there : id < store.frames.size)
    (free : store.assignable id name = .ok holder) (rooted : store.Rooted value) :
    (store.put holder name value).Guarded config := by
  have bound : ∃ b, (store.frame holder).find? name = some b := by
    unfold assignable holder? at free
    split at free
    · cases free
    case h_2 other found =>
      split at free
      · cases free
      · cases free
        have binds := List.find?_some found
        exact Option.isSome_iff_exists.mp binds
  obtain ⟨b,found⟩ := bound
  refine guarded.changeFrame (lt_size_of_find? found) (fun _ => rfl) (fun {installed _} entry frame => ?_)
    fun b mem => ?_
  · refine Frame.find?_assign_of_ne value fun same => ?_
    subst same
    rw [guarded.assignable_installed entry there] at free
    cases free
  · obtain ⟨old,inside,rfl⟩ := List.mem_map.mp mem
    split
    · exact rooted
    · exact guarded.bound holder old inside

theorem child (guarded : store.Guarded config) {parent : FrameId} (there : parent < store.frames.size) :
    (store.child parent).2.Guarded config where
  some_frame := by
    rw [size_child]
    exact Nat.lt_succ_of_lt guarded.some_frame
  outermost := by
    rw [frame_child,if_neg (Nat.ne_of_lt guarded.some_frame)]
    exact guarded.outermost
  rooted id inside inner := by
    rw [size_child] at inside
    rw [frame_child]
    split
    · exact guarded.chain_getLast? there
    case isFalse old =>
      have before : id < store.frames.size := Nat.lt_of_le_of_ne (Nat.le_of_lt_succ inside) old
      exact guarded.rooted id before inner
  installed entry := by
    rw [frame_child,if_neg (Nat.ne_of_lt guarded.some_frame)]
    exact guarded.installed entry
  unshadowed entry id inner := by
    rw [frame_child]
    split
    · rfl
    · exact guarded.unshadowed entry id inner
  bound id b mem := by
    rw [frame_child] at mem
    split at mem
    · cases mem
    · exact Rooted.grow (guarded.bound id b mem) (by simp)
  items id a mem := Rooted.grow (guarded.items id a mem) (by simp)

theorem arrays (guarded : store.Guarded config) {later : Store} (frames : later.frames = store.frames)
    (rooted : ∀ id, ∀ a ∈ later.items id, store.Rooted a) : later.Guarded config := by
  have frame := frame_of_frames frames
  constructor
  · rw [frames]
    exact guarded.some_frame
  · rw [frame]
    exact guarded.outermost
  · rw [frame,frames]
    exact guarded.rooted
  · rw [frame]
    exact guarded.installed
  · rw [frame]
    exact guarded.unshadowed
  · rw [frame]
    exact fun id b mem => Rooted.grow (guarded.bound id b mem) (Nat.le_of_eq (by rw [frames]))
  · exact fun id a mem => Rooted.grow (rooted id a mem) (Nat.le_of_eq (by rw [frames]))

end Guarded

end Store

/-- The law that the library is as it was installed. -/
def protection (config : Config) : Law where
  turtle _ := True
  holds s := s.store.Guarded config
  scope s id := id < s.store.frames.size

section
variable {config : Config} {s : Scene} {a : Value}

theorem fits_iff_rooted : (protection config).Fits s a ↔ s.store.Rooted a := by
  constructor
  · rintro fits c rfl
    exact fits
  · intro rooted
    cases a with
    | function f =>
      cases f with
      | builtin b => exact trivial
      | declared c => exact rooted c rfl
    | _ => exact trivial

theorem rooted_of_plain {store : Store} (plain : a.Plain) : store.Rooted a := by
  rintro c rfl
  exact plain.elim

theorem Store.Guarded.get {store : Store} (guarded : store.Guarded config) {id : FrameId} {name : String}
    (found : store.get id name = .ok a) : store.Rooted a := by
  unfold Store.get Store.binding? at found
  split at found
  case h_1 b there =>
    cases found
    obtain ⟨holder,_,bound⟩ := List.exists_of_findSome?_eq_some there
    exact guarded.bound holder b (Frame.mem_bindings_of_find? bound).1
  case h_2 => cases found

theorem Store.Guarded.itemOf {store : Store} (guarded : store.Guarded config) {target position : Value}
    (found : store.itemOf target position = .ok a) : store.Rooted a := by
  rcases Builtin.found_of_itemOf found with plain | ⟨id,mem⟩
  · exact rooted_of_plain plain
  · exact guarded.items id a mem

theorem protection_kept : (protection config).Kept where
  turtle _ := trivial
  still _ := trivial
  handed guarded _ := ⟨guarded,fun _ allowed => allowed⟩
  global guarded := guarded.some_frame
  get guarded _ found := fits_iff_rooted.mpr (guarded.get found)
  item guarded found := fits_iff_rooted.mpr (guarded.itemOf found)
  put guarded there fits free := by
    refine ⟨guarded.put there free (fits_iff_rooted.mp fits),fun id allowed => ?_⟩
    exact Nat.lt_of_lt_of_eq allowed (Store.size_changeFrame _ _).symm
  bind guarded there fits free := by
    refine ⟨guarded.bind there free (fits_iff_rooted.mp fits),fun id allowed => ?_⟩
    exact Nat.lt_of_lt_of_eq allowed (Store.size_changeFrame _ _).symm
  newArray guarded fits := by
    refine ⟨guarded.arrays rfl fun id a mem => ?_,fun _ allowed => allowed⟩
    rcases Store.items_newArray mem with new | old
    · exact fits_iff_rooted.mp (fits a new)
    · exact guarded.items id a old
  newClosure _ _ _ _ guarded := ⟨guarded.arrays rfl guarded.items,fun _ allowed => allowed⟩
  child guarded there := by
    refine ⟨⟨guarded.child there,fun id allowed => ?_⟩,?_⟩
    · exact Nat.lt_of_lt_of_eq (Nat.lt_succ_of_lt allowed) (Store.size_child _).symm
    · exact Nat.lt_of_lt_of_eq (Nat.lt_succ_self _) (Store.size_child _).symm
  apply {s} b args guarded fits := by
    have effect := b.effect args s
    obtain ⟨items,given⟩ := effect.carries (fun _ => rooted_of_plain) (fun b mem => fits_iff_rooted.mp (fits b mem))
      guarded.items
    have later : (protection config).Later s ((b.apply args).onScene s).2 := fun id allowed =>
      Nat.lt_of_lt_of_eq allowed (congrArg Array.size effect.frames_eq).symm
    exact ⟨⟨guarded.arrays effect.frames_eq items,later⟩,
      fun a same => Law.Fits.later (fits_iff_rooted.mpr (given a same)) later⟩

theorem Library.installed_names_nodup : ((Library.installed config).map Prod.fst).Nodup := by
  have names : (Library.installed config).map Prod.fst = (Library.installed {}).map Prod.fst := rfl
  rw [names]
  decide +kernel

theorem Store.initial_frames : (Store.initial config).frames =
    #[{ bindings := (Library.installed config).map fun entry => ⟨entry.1,entry.2,true⟩ }] := rfl

theorem Store.initial_frame (id : FrameId) : (Store.initial config).frame id =
    if id = Store.global then { bindings := (Library.installed config).map fun entry => ⟨entry.1,entry.2,true⟩ }
    else {} := by
  unfold Store.frame
  rw [Store.initial_frames]
  cases id with
  | zero => rfl
  | succ id => rfl

theorem Library.rooted_of_installed {store : Store} {name : String}
    (entry : (name,a) ∈ Library.installed config) : store.Rooted a := by
  rintro c rfl
  unfold installed standard drawing screen functions at entry
  simp at entry

theorem find?_library {entries : List (String × Value)} (distinct : (entries.map Prod.fst).Nodup)
    {name : String} (entry : (name,a) ∈ entries) :
    Frame.find? { bindings := entries.map fun entry => ⟨entry.1,entry.2,true⟩ } name = some ⟨name,a,true⟩ := by
  unfold Frame.find?
  induction entries with
  | nil => cases entry
  | cons first rest ih =>
    rw [List.map_cons,List.nodup_cons] at distinct
    rw [List.map_cons,List.find?_cons]
    rcases List.mem_cons.mp entry with rfl | later
    · simp
    · have other : first.1 ≠ name := fun same => distinct.1 (List.mem_map.mpr ⟨_,later,same.symm⟩)
      simp only [other,decide_false]
      exact ih distinct.2 later

theorem Store.initial_guarded : (Store.initial config).Guarded config where
  some_frame := Nat.zero_lt_one
  outermost := rfl
  rooted id inside inner := absurd (Nat.lt_one_iff.mp inside) inner
  installed entry := by
    rw [initial_frame,if_pos rfl]
    exact find?_library Library.installed_names_nodup entry
  unshadowed entry id inner := by
    rw [initial_frame,if_neg inner]
    rfl
  bound id b mem := by
    rw [initial_frame] at mem
    split at mem
    · obtain ⟨⟨name,value⟩,entry,rfl⟩ := List.mem_map.mp mem
      exact Library.rooted_of_installed entry
    · cases mem
  items id a mem := by
    have none : (Store.initial config).items id = [] := rfl
    rw [none] at mem
    cases mem

end

end TurtleScript
