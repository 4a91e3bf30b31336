import TurtleScript.Proofs.ScopeForests

/-!
Assignments and definitions in forests of scopes. Whatever was done to a forest before (`Store.Forest`), an assignment
changes the one binding that the name is read from, so it is seen from all scopes that read the name there and from no
other (`Layered.assigned`). A definition is seen from all scopes that come to it before they come to another binding of
the name (`Layered.defined`). A step that fails changes nothing (`assigns_what_is_read`).
-/

namespace TurtleScript

/-- What can be done to a forest of scopes. -/
inductive ScopeCall where
  /-- Makes a scope that is inside no other one. -/
  | plant
  | child (parent : FrameId)
  /-- Binds a name, for the library or for the program. -/
  | define (id : FrameId) (name : String) (value : Value) (library : Bool)
  | assign (id : FrameId) (name : String) (value : Value)
  /-- Binds the entries of a table, as far as they can be bound. -/
  | install (id : FrameId) (library : Library)
  | clear (id : FrameId)

def ScopeCall.scope? : ScopeCall → Option FrameId
  | .plant => none
  | .child id | .define id _ _ _ | .assign id _ _ | .install id _ | .clear id => some id

namespace Store

def plant (store : Store) : FrameId × Store :=
  (store.frames.size, { store with frames := store.frames.push {} })

/-- What a step has made of the store; the store as it was if the step has failed. -/
def after (store : Store) : Except Fault Store → Except Fault Unit × Store
  | .ok later => (.ok (), later)
  | .error fault => (.error fault, store)

/-- Whether a call succeeds, and the store behind it. -/
def perform (store : Store) : ScopeCall → Except Fault Unit × Store
  | .plant => (.ok (), store.plant.2)
  | .child parent => (.ok (), (store.child parent).2)
  | .define id name value library => store.after (store.define id { name := name, value := value, library := library })
  | .assign id name value => store.after (store.assign id name value)
  | .install id library => library.bind id store
  | .clear id => (.ok (), store.clear id)

/-- A forest that came about by calls, each on a scope that was there. -/
inductive Forest : Store → Prop where
  | bare : Forest { frames := #[] }
  | call {store : Store} (forest : Forest store) (call : ScopeCall)
      (there : ∀ id ∈ call.scope?, id < store.frames.size) : Forest (store.perform call).2

/-- The name has another value where it is bound nearest to the scope, and all else is read as before. -/
structure Assigned (store later : Store) (id : FrameId) (name : String) (value : Value) : Prop where
  read {holder other : FrameId} : store.Nearest name id holder → store.Nearest name other holder →
    later.get other name = .ok value
  kept {other : FrameId} {read : String} :
    (read = name → ∀ holder, store.Nearest name id holder → ¬ store.Nearest name other holder) →
      later.get other read = store.get other read

/-- The name is read in the scope from wherever one comes there first, and all else is read as before. -/
structure Defined (store later : Store) (id : FrameId) (name : String) (value : Value) : Prop where
  read {other : FrameId} : store.Leads name other id → later.get other name = .ok value
  kept {other : FrameId} {read : String} : (read = name → ¬ store.Leads name other id) →
    later.get other read = store.get other read

end Store

namespace Frame

variable {frame : Frame} {name : String}

theorem find?_assign (frame : Frame) (name : String) (value : Value) :
    (frame.assign name value).find? name = (frame.find? name).map ({ · with value := value }) := by
  unfold find? assign
  induction frame.bindings with
  | nil => rfl
  | cons b bs ih =>
    simp only [List.map_cons,List.find?_cons]
    by_cases same : b.name = name
    · simp [same]
    · simp [same,ih]

theorem find?_insert {b : Binding} (free : frame.find? b.name = none) : (frame.insert b).find? b.name = some b := by
  unfold find? at free ⊢
  unfold insert
  rw [List.find?_append,free,Option.none_or,List.find?_cons_of_pos]
  exact decide_eq_true rfl

end Frame

namespace Store

variable {store later : Store} {id holder : FrameId} {name : String} {value : Value}

theorem after_of_error {result : Except Fault Store} {fault : Fault}
    (failed : (store.after result).1 = .error fault) : (store.after result).2 = store := by
  cases result with
  | ok later => cases failed
  | error _ => rfl

theorem after_of_ok {result : Except Fault Store} (done : (store.after result).1 = .ok ()) :
    result = .ok (store.after result).2 := by
  cases result with
  | ok later => rfl
  | error _ => cases done

theorem after_succeeds_iff {result : Except Fault Store} :
    (store.after result).1 = .ok () ↔ ∃ later, result = .ok later := by
  cases result with
  | ok later => exact ⟨fun _ => ⟨later,rfl⟩,fun _ => rfl⟩
  | error _ => exact ⟨nofun,nofun⟩

theorem define_eq_ok {b : Binding} (done : store.define id b = .ok later) :
    (store.frame id).find? b.name = none ∧ later = store.bind id b := by
  unfold define at done
  split at done
  case h_1 free =>
    cases done
    exact ⟨free_of_definable free,rfl⟩
  case h_2 => cases done

theorem assign_eq_ok_iff : store.assign id name value = .ok later ↔
    ∃ holder b, store.holder? id name = some holder ∧ (store.frame holder).find? name = some b ∧ b.library = false ∧
      later = store.put holder name value := by
  unfold assign assignable
  cases held : store.holder? id name with
  | none => simp
  | some holder =>
    obtain ⟨b,bound⟩ : ∃ b, (store.frame holder).find? name = some b := by
      unfold holder? at held
      have binds := List.find?_some held
      exact Option.isSome_iff_exists.mp binds
    simp only [bound,Option.any_some]
    cases owned : b.library with
    | true =>
      constructor
      · rintro ⟨⟩
      · rintro ⟨_,_,⟨⟩,same,unowned,_⟩
        rw [bound] at same
        cases same
        rw [owned] at unowned
        cases unowned
    | false =>
      constructor
      · rintro ⟨⟩
        exact ⟨holder,b,rfl,bound,owned,rfl⟩
      · rintro ⟨_,_,⟨⟩,_,_,rfl⟩
        rfl

theorem Layered.assign_succeeds_iff (layered : store.Layered) : (∃ later, store.assign id name value = .ok later) ↔
    (∃ a, store.get id name = .ok a) ∧
      ∀ holder b, store.Nearest name id holder → (store.frame holder).find? name = some b → b.library = false := by
  simp only [assign_eq_ok_iff,layered.holder?_eq_some_iff,layered.get_eq_ok_iff]
  constructor
  · rintro ⟨_,holder,b,nearest,bound,owned,_⟩
    refine ⟨⟨_,holder,b,nearest,bound,rfl⟩,fun other c also found => ?_⟩
    rw [layered.nearest_unique also nearest,bound] at found
    cases found
    exact owned
  · rintro ⟨⟨_,holder,b,nearest,bound,_⟩,owned⟩
    exact ⟨_,holder,b,nearest,bound,owned holder b nearest bound,rfl⟩

theorem Layered.bindEntries (entries : List (String × Value)) (layered : store.Layered) :
    (Library.bindEntries id entries store).2.Layered := by
  induction entries generalizing store with
  | nil => exact layered
  | cons entry entries ih =>
    obtain ⟨name,value⟩ := entry
    rw [Library.bindEntries]
    cases done : store.define id { name := name, value := value, library := true } with
    | error fault => exact layered
    | ok later =>
      rw [(define_eq_ok done).2]
      exact ih (layered.changeFrame fun _ => rfl)

theorem Layered.after (layered : store.Layered) {result : Except Fault Store}
    (made : ∀ later, result = .ok later → later.Layered) : (store.after result).2.Layered := by
  cases result with
  | ok later => exact made later rfl
  | error fault => exact layered

theorem Layered.perform (layered : store.Layered) {call : ScopeCall}
    (there : ∀ id ∈ call.scope?, id < store.frames.size) : (store.perform call).2.Layered := by
  cases call with
  | plant => exact layered.push (.inl rfl)
  | child parent => exact layered.push (.inr ⟨parent,there parent rfl,rfl⟩)
  | define id name value library =>
    refine layered.after fun later done => ?_
    rw [(define_eq_ok done).2]
    exact layered.changeFrame fun _ => rfl
  | assign id name value =>
    refine layered.after fun later done => ?_
    obtain ⟨holder,b,_,_,_,rfl⟩ := assign_eq_ok_iff.mp done
    exact layered.changeFrame fun _ => rfl
  | install id library => exact layered.bindEntries library.entries
  | clear id => exact layered.changeFrame fun _ => rfl

theorem Forest.layered (forest : store.Forest) : store.Layered := by
  induction forest with
  | bare => exact fun id => .inl (congrArg Frame.outer (frame_of_size_le (Nat.zero_le id)))
  | call _ call there ih => exact ih.perform there

/-! ### What is read after a step -/

theorem parent?_changeFrame {f : Frame → Frame} (kept : ∀ frame, (f frame).outer = frame.outer) (other : FrameId) :
    (store.changeFrame id f).parent? other = store.parent? other := by
  unfold parent?
  rcases store.frame_changeFrame_or id other f with changed | unchanged
  · rw [changed,kept]
  · rw [unchanged]

theorem Leads.changeFrame {f : Frame → Frame} (kept : ∀ frame, (f frame).outer = frame.outer) {other : FrameId}
    (leads : store.Leads name other id) : (store.changeFrame id f).Leads name other id := by
  induction leads with
  | here => exact .here _
  | @outward inner parent id free around _ ih =>
    by_cases same : inner = id
    · rw [same]
      exact .here id
    · refine .outward ?_ ?_ ih
      · rw [frame_changeFrame_of_ne same f]
        exact free
      · rw [parent?_changeFrame kept]
        exact around

namespace Layered

theorem get_of_leads (layered : store.Layered) {other : FrameId} {b : Binding} (leads : store.Leads name other id)
    (bound : (store.frame id).find? name = some b) : store.get other name = .ok b.value := by
  induction leads with
  | here => rw [layered.get_eq,bound]
  | outward free around _ ih =>
    rw [layered.get_eq,free,around]
    exact ih bound

/-- What is bound in other scopes, or to other names, is read as before a scope was changed. -/
theorem get_changeFrame (layered : store.Layered) {f : Frame → Frame} (outer : ∀ frame, (f frame).outer = frame.outer)
    {read : String} (Seen : FrameId → Prop) {other : FrameId}
    (same : ∀ inner, ¬ Seen inner → ((store.changeFrame id f).frame inner).find? read = (store.frame inner).find? read)
    (onward : ∀ inner parent, (store.frame inner).find? read = none → store.parent? inner = some parent →
      Seen parent → Seen inner)
    (unseen : ¬ Seen other) : (store.changeFrame id f).get other read = store.get other read := by
  have later : (store.changeFrame id f).Layered := layered.changeFrame outer
  induction other using Nat.strong_induction_on with
  | h other ih =>
    rw [later.get_eq other read,layered.get_eq other read,same other unseen,parent?_changeFrame outer other]
    cases found : (store.frame other).find? read with
    | some b => rfl
    | none =>
      cases around : store.parent? other with
      | none => rfl
      | some parent =>
        exact ih parent (layered.parent_lt around) fun seen => unseen (onward other parent found around seen)

theorem defined (layered : store.Layered) (there : id < store.frames.size) {b : Binding}
    (free : (store.frame id).find? b.name = none) : store.Defined (store.bind id b) id b.name b.value where
  read leads := by
    have later : (store.bind id b).Layered := layered.changeFrame fun _ => rfl
    refine later.get_of_leads (leads.changeFrame (f := (·.insert b)) fun _ => rfl) ?_
    unfold Store.bind
    rw [frame_changeFrame there,if_pos rfl]
    exact Frame.find?_insert free
  kept {other read} unseen := by
    refine layered.get_changeFrame (f := (·.insert b)) (fun _ => rfl)
      (fun inner => read = b.name ∧ store.Leads b.name inner id) ?_ ?_ fun seen => unseen seen.1 seen.2
    · intro inner away
      rw [frame_changeFrame there]
      split
      case isTrue same =>
        subst same
        refine Frame.find?_insert_of_ne fun same => away ⟨same.symm,.here inner⟩
      case isFalse => rfl
    · rintro inner parent free around ⟨rfl,leads⟩
      exact ⟨rfl,.outward free around leads⟩

/-- An assignment is read from all scopes that read the name in the same place. -/
theorem assigned (layered : store.Layered) (nearest : store.Nearest name id holder) (value : Value) :
    store.Assigned (store.put holder name value) id name value := by
  obtain ⟨b,bound⟩ := nearest.2
  have there : holder < store.frames.size := lt_size_of_find? bound
  have later : (store.put holder name value).Layered := layered.changeFrame fun _ => rfl
  constructor
  · intro inner other also leads
    rw [layered.nearest_unique also nearest] at leads
    refine later.get_of_leads (leads.1.changeFrame (f := (·.assign name value)) fun _ => rfl)
      (b := { b with value := value }) ?_
    unfold Store.put
    rw [frame_changeFrame there,if_pos rfl,Frame.find?_assign,bound]
    rfl
  · intro other read unseen
    refine layered.get_changeFrame (f := (·.assign name value)) (fun _ => rfl)
      (fun inner => read = name ∧ store.Nearest name inner holder) ?_ ?_ fun seen => unseen seen.1 holder nearest seen.2
    · intro inner away
      rw [frame_changeFrame there]
      split
      case isTrue same =>
        subst same
        refine Frame.find?_assign_of_ne value fun same => away ⟨same,.here inner,b,bound⟩
      case isFalse => rfl
    · rintro inner parent free around ⟨rfl,leads,bound⟩
      exact ⟨rfl,.outward free around leads,bound⟩

end Layered

end Store

namespace Action

variable (s : Scene) (id : FrameId) (name : String) (value : Value)

theorem onScene_assign : (assign id name value).onScene s =
    let (result,store) := s.store.perform (.assign id name value)
    (result,{ s with store := store }) := by
  unfold assign
  rw [onScene_bind _ fun _ => contained_alter _,onScene_inquire]
  simp only [Store.perform,Store.assign]
  cases s.store.assignable id name with
  | ok holder => rfl
  | error fault => rfl

theorem onScene_define : (define id name value).onScene s =
    let (result,store) := s.store.perform (.define id name value false)
    (result,{ s with store := store }) := by
  unfold define
  rw [onScene_bind _ fun _ => contained_alter _,onScene_inquire]
  simp only [Store.perform,Store.define]
  cases s.store.definable id name with
  | ok _ => rfl
  | error fault => rfl

end Action

namespace Store

variable {store : Store} {id : FrameId} {name : String} {value : Value} {library : Bool}

/-- Assignments change the binding that is read, and nothing else. Definitions change what is read where one comes to
them first. Neither changes anything if it fails. -/
theorem assigns_what_is_read (forest : store.Forest) (there : id < store.frames.size) (name : String) (value : Value) :
    (match store.perform (.assign id name value) with
      | (result,later) =>
        (result = .ok () ↔ (∃ a, store.get id name = .ok a) ∧
          ∀ holder b, store.Nearest name id holder → (store.frame holder).find? name = some b → b.library = false) ∧
        (result = .ok () → store.Assigned later id name value) ∧ ∀ fault, result = .error fault → later = store) ∧
    ∀ library, match store.perform (.define id name value library) with
      | (result,later) =>
        (result = .ok () → store.Defined later id name value) ∧ ∀ fault, result = .error fault → later = store := by
  have layered := forest.layered
  refine ⟨⟨?_,fun done => ?_,fun fault => after_of_error⟩,fun library => ⟨fun done => ?_,fun fault => after_of_error⟩⟩
  · rw [← layered.assign_succeeds_iff]
    exact after_succeeds_iff
  · obtain ⟨holder,_,held,_,_,later⟩ := assign_eq_ok_iff.mp (after_of_ok done)
    have assigned := layered.assigned (layered.holder?_eq_some_iff.mp held) value
    rwa [← later] at assigned
  · obtain ⟨free,later⟩ := define_eq_ok (after_of_ok done)
    have defined := layered.defined there free
    rwa [← later] at defined

/-- Two scopes inside each other and inside one with a name of the program and one of the library. The scope in between
bound the name, too, before it was emptied. -/
def clearedForest : Store :=
  [.plant,.define 0 "x" .null false,.define 0 "E" .null true,.child 0,.define 1 "x" .null false,.child 1,.clear 1].foldl
    (fun (store : Store) call => (store.perform call).2) { frames := #[] }

theorem forest_clearedForest : clearedForest.Forest :=
  have on : ∀ {store : Store} {id : FrameId}, id < store.frames.size → ∀ other ∈ some id, other < store.frames.size :=
    fun there _ same => Option.some.inj same ▸ there
  Forest.bare.call .plant nofun
    |>.call (.define 0 "x" .null false) (on (by decide))
    |>.call (.define 0 "E" .null true) (on (by decide))
    |>.call (.child 0) (on (by decide))
    |>.call (.define 1 "x" .null false) (on (by decide))
    |>.call (.child 1) (on (by decide))
    |>.call (.clear 1) (on (by decide))

/-- The name is assigned around the emptied scope, and declared in that scope it is read from the inside. -/
theorem assigns_what_is_read_cleared :
    clearedForest.get 1 "x" = .ok .null ∧ (clearedForest.perform (.assign 2 "x" (.bool true))).1 = .ok () ∧
    (clearedForest.perform (.assign 2 "x" (.bool true))).2.get 1 "x" = .ok (.bool true) ∧
    (clearedForest.perform (.assign 2 "E" (.bool true))).1 ≠ .ok () ∧
    (clearedForest.perform (.define 1 "x" (.bool true) false)).2.get 2 "x" = .ok (.bool true) ∧
    (clearedForest.perform (.define 1 "x" (.bool true) false)).2.get 0 "x" = .ok .null := by
  have forest := forest_clearedForest
  have there : 2 < clearedForest.frames.size := by decide
  obtain ⟨⟨succeeds,assigned,_⟩,_⟩ := assigns_what_is_read forest there "x" (.bool true)
  obtain ⟨⟨unowned,_⟩,_⟩ := assigns_what_is_read forest there "E" (.bool true)
  obtain ⟨_,declares⟩ := assigns_what_is_read forest (Nat.lt_of_succ_lt there) "x" (.bool true)
  have done : (clearedForest.perform (.assign 2 "x" (.bool true))).1 = .ok () := rfl
  have declared : (clearedForest.perform (.define 1 "x" (.bool true) false)).1 = .ok () := rfl
  have nearest : ∀ id, clearedForest.holder? id "x" = some 0 → clearedForest.Nearest "x" id 0 :=
    fun id => forest.layered.holder?_eq_some_iff.mp
  refine ⟨rfl,done,?_,?_,?_,?_⟩
  · exact (assigned done).read (nearest 2 (by decide)) (nearest 1 (by decide))
  · intro assigned
    have owned := (unowned.mp assigned).2 0 { name := "E", value := .null, library := true }
      (forest.layered.holder?_eq_some_iff.mp (by decide)) rfl
    cases owned
  · exact ((declares false).1 declared).read (.outward rfl rfl (.here 1))
  · refine (((declares false).1 declared).kept fun _ leads => ?_).trans rfl
    cases leads with
    | outward _ around _ => cases around

end Store

end TurtleScript
