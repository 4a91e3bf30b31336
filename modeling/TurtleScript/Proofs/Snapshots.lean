import TurtleScript.Proofs.TidyStores

/-!
Snapshots of the variables. The list of the visible variables is made scope by scope, from the inside out. In a tidy
store it has an entry for each name of the program that stands for something (`Tidy.mem_visible_iff`), and agrees with
what the names stand for (`Tidy.snapshot`). Stores are tidy, so this is so at every moment of every session
(`snapshots_agree`).
-/

namespace TurtleScript

def nameBytes (name : String) : List UInt8 := name.toUTF8.data.toList

/-- The bytes of characters are ordered as the characters are, whatever follows. -/
theorem utf8EncodeChar_append_lt {c d : Char} (less : c < d) (xs ys : List UInt8) :
    String.utf8EncodeChar c ++ xs < String.utf8EncodeChar d ++ ys := by
  have values : c.val.toNat < d.val.toNat := less
  have bound : d.val.toNat < 0x110000 := d.valid.elim (by omega) (by omega)
  simp only [String.utf8EncodeChar]
  generalize c.val.toNat = m at values
  generalize d.val.toNat = n at values bound
  have digits : ∀ v, v / 4096 = v / 64 / 64 ∧ v / 262144 = v / 64 / 64 / 64 := by omega
  -- The first byte tells how many follow, and more bytes are for greater numbers.
  split_ifs <;>
    simp (disch := omega) only [List.cons_append,List.nil_append,List.cons_lt_cons_iff,UInt8.lt_iff_toNat_lt,
      ← UInt8.toNat_inj,UInt8.toNat_ofNat',Nat.mod_eq_of_lt,digits] <;>
    omega

theorem flatMap_utf8EncodeChar_lt {cs ds : List Char} (less : cs < ds) :
    cs.flatMap String.utf8EncodeChar < ds.flatMap String.utf8EncodeChar := by
  induction less with
  | @nil d ds =>
    obtain ⟨b,bs,some⟩ := List.exists_cons_of_ne_nil (String.utf8EncodeChar_ne_nil (c := d))
    rw [List.flatMap_nil,List.flatMap_cons,some]
    exact .nil
  | rel less => exact utf8EncodeChar_append_lt less _ _
  | cons _ ih => exact List.append_left_lt ih

theorem nameBytes_eq (name : String) : nameBytes name = name.toList.flatMap String.utf8EncodeChar := by
  have encoded : name.toUTF8 = name.toList.utf8Encode := by
    rw [String.toUTF8_eq_toByteArray,← String.toByteArray_ofList,String.ofList_toList]
  unfold nameBytes
  rw [encoded]
  exact List.toList_data_toByteArray

theorem nameBytes_lt {first second : String} (less : first < second) : nameBytes first < nameBytes second := by
  rw [nameBytes_eq,nameBytes_eq]
  exact flatMap_utf8EncodeChar_lt less

namespace Store

/-- The one is listed before the other: it is further inside, or in the same scope and its name comes first. -/
def Variable.Before (first second : Variable) : Prop :=
  first.depth < second.depth ∨ first.depth = second.depth ∧ nameBytes first.name < nameBytes second.name

/-- A list of the variables that are visible in a scope. It has each name of the program that stands for something there
and no other, once and with its value, with how many scopes further out its nearest binding is, and with whether a scope
around that one binds it, too; first those further inside, and those of one scope by the bytes of their names. -/
structure Snapshot (config : Config) (store : Store) (id : FrameId) (views : List Variable) : Prop where
  once : (views.map Variable.name).Nodup
  listed : ∀ name, name ∈ views.map Variable.name ↔
    (∃ a, store.get id name = .ok a) ∧ name ∉ (Library.installed config).map Prod.fst
  value : ∀ v ∈ views, store.get id v.name = .ok v.value
  depth : ∀ v ∈ views, ∃ holder, store.ancestor? id v.depth = some holder ∧ store.Nearest v.name id holder
  shadows : ∀ v ∈ views, v.shadows = true ↔
    ∃ n > v.depth, ∃ further, store.ancestor? id n = some further ∧ (store.frame further).binds v.name
  ordered : views.Pairwise Variable.Before

variable {store : Store} {id : FrameId} {name : String} {config : Config}

theorem mem_ownBindings {frame : Frame} {b : Binding} :
    b ∈ ownBindings frame ↔ b ∈ frame.bindings ∧ b.library = false := by
  unfold ownBindings
  rw [List.mem_mergeSort,List.mem_filter,Bool.not_eq_true']

theorem ownBindings_sorted {frame : Frame} (distinct : (frame.bindings.map Binding.name).Nodup) :
    (ownBindings frame).Pairwise fun a b => a.name < b.name := by
  have sorted : (ownBindings frame).Pairwise fun a b => decide (a.name ≤ b.name) := by
    refine List.pairwise_mergeSort (fun a b c first second => ?_) (fun a b => ?_) _
    · exact decide_eq_true (String.le_trans (of_decide_eq_true first) (of_decide_eq_true second))
    · simpa using String.le_total a.name b.name
  have different : (ownBindings frame).Pairwise fun a b => a.name ≠ b.name := by
    have own : ((frame.bindings.filter (!·.library)).map Binding.name).Nodup :=
      distinct.sublist (List.filter_sublist.map _)
    have perm := List.mergeSort_perm (frame.bindings.filter (!·.library)) fun a b => decide (a.name ≤ b.name)
    exact List.pairwise_map.mp ((perm.map _).nodup_iff.mpr own)
  refine sorted.imp₂ (fun a b notAfter apart => ?_) different
  refine String.not_le.mp fun after => apart (String.le_antisymm (of_decide_eq_true notAfter) after)

theorem find?_eq_some_iff {frame : Frame} (distinct : (frame.bindings.map Binding.name).Nodup) {b : Binding} :
    frame.find? name = some b ↔ b ∈ frame.bindings ∧ b.name = name := by
  refine ⟨Frame.mem_bindings_of_find?,?_⟩
  rintro ⟨mem,rfl⟩
  unfold Frame.find?
  generalize frame.bindings = bindings at distinct mem
  induction bindings with
  | nil => cases mem
  | cons c cs ih =>
    rw [List.map_cons,List.nodup_cons] at distinct
    rcases List.mem_cons.mp mem with rfl | later
    · exact List.find?_cons_of_pos (decide_eq_true rfl)
    · have different : c.name ≠ b.name := fun same => distinct.1 (List.mem_map.mpr ⟨b,later,same.symm⟩)
      rw [List.find?_cons_of_neg (by simpa using different)]
      exact ih distinct.2 later

theorem depth_of_mem_visibleFrom {v : Variable} : ∀ {chain : List FrameId} {depth : Nat} {seen : List String},
    v ∈ store.visibleFrom depth seen chain → depth ≤ v.depth ∧ v.name ∉ seen
  | [],_,_,mem => nomatch mem
  | f :: outer,depth,seen,mem => by
    rw [visibleFrom] at mem
    rcases List.mem_append.mp mem with here | further
    · obtain ⟨b,own,rfl⟩ := List.mem_map.mp here
      have unseen := (List.mem_filter.mp own).2
      exact ⟨Nat.le_refl _,by simpa using unseen⟩
    · obtain ⟨deeper,unseen⟩ := depth_of_mem_visibleFrom further
      exact ⟨Nat.le_of_succ_le deeper,fun before => unseen (List.mem_append_left _ before)⟩

theorem visibleFrom_ordered (distinct : ∀ id, ((store.frame id).bindings.map Binding.name).Nodup) :
    ∀ (chain : List FrameId) (depth : Nat) (seen : List String),
      (store.visibleFrom depth seen chain).Pairwise fun v w => v.Before w ∧ v.name ≠ w.name
  | [],_,_ => .nil
  | f :: outer,depth,seen => by
    rw [visibleFrom,List.pairwise_append]
    refine ⟨?_,visibleFrom_ordered distinct outer _ _,fun v here w further => ?_⟩
    · have sorted := (ownBindings_sorted (distinct f)).filter fun b => !seen.contains b.name
      refine List.pairwise_map.mpr (sorted.imp fun less => ⟨.inr ⟨rfl,nameBytes_lt less⟩,String.ne_of_lt less⟩)
    · obtain ⟨b,own,rfl⟩ := List.mem_map.mp here
      obtain ⟨deeper,unseen⟩ := depth_of_mem_visibleFrom further
      refine ⟨.inl deeper,fun same => unseen (List.mem_append_right _ ?_)⟩
      rw [← same]
      exact List.mem_map_of_mem own

/-- So many scopes further out is the nearest binding of the name in an entry, one of the program, and the entry gives
its value and whether the name is bound again around it. -/
structure Entry (store : Store) (id : FrameId) (n : Nat) (v : Variable) : Prop where
  held : ∃ holder b, store.ancestor? id n = some holder ∧ store.Nearest v.name id holder ∧
    (store.frame holder).find? v.name = some b ∧ b.library = false ∧ b.value = v.value
  shadows : v.shadows = true ↔
    ∃ m > n, ∃ further, store.ancestor? id m = some further ∧ (store.frame further).binds v.name

namespace Tidy

theorem layered (tidy : store.Tidy config) : store.Layered := tidy.scopes.layered

theorem library_eq (tidy : store.Tidy config) {other : FrameId} {b c : Binding} (here : b ∈ (store.frame id).bindings)
    (there : c ∈ (store.frame other).bindings) (same : b.name = c.name) : b.library = c.library := by
  rw [Bool.eq_iff_iff,tidy.owned id b here,tidy.owned other c there,same]

theorem any_outer_iff (tidy : store.Tidy config) {p : FrameId → Bool} :
    (store.frame id).outer.any p = true ↔ ∃ m > 0, ∃ further, store.ancestor? id m = some further ∧ p further := by
  rw [List.any_eq_true]
  constructor
  · rintro ⟨further,mem,holds⟩
    obtain ⟨n,at_⟩ := List.mem_iff_getElem?.mp mem
    refine ⟨n + 1,Nat.succ_pos n,further,?_,holds⟩
    rw [← tidy.layered.chain_getElem?]
    exact at_
  · rintro ⟨m,some,further,leads,holds⟩
    obtain ⟨n,rfl⟩ := Nat.exists_eq_add_one.mpr some
    rw [← tidy.layered.chain_getElem?] at leads
    exact ⟨further,List.mem_iff_getElem?.mpr ⟨n,leads⟩,holds⟩

theorem entry_zero_iff (tidy : store.Tidy config) {v : Variable} : store.Entry id 0 v ↔
    (∃ b ∈ (store.frame id).bindings, b.library = false ∧ b.name = v.name ∧ b.value = v.value) ∧
      v.shadows = (store.frame id).outer.any fun further => (store.frame further).binds v.name := by
  have around : (store.frame id).outer.any (fun further => (store.frame further).binds v.name) = true ↔
      ∃ m > 0, ∃ further, store.ancestor? id m = some further ∧ (store.frame further).binds v.name := tidy.any_outer_iff
  constructor
  · rintro ⟨⟨holder,b,here,_,bound,owned,value⟩,shadows⟩
    cases here
    obtain ⟨mem,named⟩ := Frame.mem_bindings_of_find? bound
    exact ⟨⟨b,mem,owned,named,value⟩,Bool.eq_iff_iff.mpr (shadows.trans around.symm)⟩
  · rintro ⟨⟨b,mem,owned,named,value⟩,shadows⟩
    have bound := (find?_eq_some_iff (tidy.distinct id)).mpr ⟨mem,named⟩
    refine ⟨⟨id,b,rfl,(nearest_of_bound bound).mpr rfl,bound,owned,value⟩,?_⟩
    rw [shadows]
    exact around

theorem entry_succ_iff (tidy : store.Tidy config) {n : Nat} {v : Variable} : store.Entry id (n + 1) v ↔
    (store.frame id).find? v.name = none ∧ ∃ parent, store.parent? id = some parent ∧ store.Entry parent n v := by
  have further : ∀ {parent}, store.parent? id = some parent →
      ((∃ m > n + 1, ∃ further, store.ancestor? id m = some further ∧ (store.frame further).binds v.name) ↔
        ∃ m > n, ∃ further, store.ancestor? parent m = some further ∧ (store.frame further).binds v.name) := by
    intro parent around
    constructor
    · rintro ⟨m,more,found⟩
      obtain ⟨k,rfl⟩ := Nat.exists_eq_add_one.mpr (Nat.zero_lt_of_lt more)
      rw [ancestor?_succ around] at found
      exact ⟨k,Nat.lt_of_succ_lt_succ more,found⟩
    · rintro ⟨m,more,found⟩
      refine ⟨m + 1,Nat.succ_lt_succ more,?_⟩
      rw [ancestor?_succ around]
      exact found
  constructor
  · rintro ⟨⟨holder,b,leads,nearest,bound,owned,value⟩,shadows⟩
    obtain ⟨parent,around,onwards⟩ := Option.bind_eq_some_iff.mp leads
    have outside : holder < id := Nat.lt_of_le_of_lt (tidy.layered.ancestor?_le onwards) (tidy.layered.parent_lt around)
    have free : (store.frame id).find? v.name = none := by
      refine Option.eq_none_iff_forall_ne_some.mpr fun c found => ?_
      exact Nat.ne_of_lt outside ((nearest_of_bound found).mp nearest)
    obtain ⟨other,also,nearest⟩ := (nearest_of_free free).mp nearest
    cases around.symm.trans also
    exact ⟨free,parent,around,⟨holder,b,onwards,nearest,bound,owned,value⟩,shadows.trans (further around)⟩
  · rintro ⟨free,parent,around,⟨holder,b,onwards,nearest,bound,owned,value⟩,shadows⟩
    have leads := (ancestor?_succ around n).trans onwards
    have nearest := (nearest_of_free free).mpr ⟨parent,around,nearest⟩
    exact ⟨⟨holder,b,leads,nearest,bound,owned,value⟩,shadows.trans (further around).symm⟩

/-! ### The list as a whole -/

/-- The variables of a scope that are listed for it, leaving out names already seen. -/
theorem mem_own_iff (tidy : store.Tidy config) {depth : Nat} {seen : List String} {v : Variable} :
    v ∈ (((ownBindings (store.frame id)).filter fun b => !seen.contains b.name).map fun b =>
        { name := b.name, value := b.value, depth := depth
          shadows := (store.frame id).outer.any fun further => (store.frame further).binds b.name }) ↔
      v.name ∉ seen ∧ v.depth = depth ∧ store.Entry id 0 v := by
  rw [List.mem_map,tidy.entry_zero_iff]
  constructor
  · rintro ⟨b,own,rfl⟩
    obtain ⟨mem,unseen⟩ := List.mem_filter.mp own
    obtain ⟨bound,owned⟩ := mem_ownBindings.mp mem
    exact ⟨by simpa using unseen,rfl,⟨b,bound,owned,rfl,rfl⟩,rfl⟩
  · rintro ⟨unseen,rfl,⟨b,bound,owned,named,value⟩,shadows⟩
    refine ⟨b,List.mem_filter.mpr ⟨mem_ownBindings.mpr ⟨bound,owned⟩,?_⟩,?_⟩
    · simpa [named] using unseen
    · rw [named,value,← shadows]

theorem not_mem_own_iff (tidy : store.Tidy config) {seen : List String} (unseen : name ∉ seen) {other : FrameId}
    {c : Binding} (there : c ∈ (store.frame other).bindings) (owned : c.library = false) (named : c.name = name) :
    name ∉ ((ownBindings (store.frame id)).filter fun b => !seen.contains b.name).map Binding.name ↔
      (store.frame id).find? name = none := by
  constructor
  · intro absent
    refine Option.eq_none_iff_forall_ne_some.mpr fun b found => absent ?_
    obtain ⟨mem,same⟩ := Frame.mem_bindings_of_find? found
    have own := (tidy.library_eq mem there (same.trans named.symm)).trans owned
    refine List.mem_map.mpr ⟨b,List.mem_filter.mpr ⟨mem_ownBindings.mpr ⟨mem,own⟩,?_⟩,same⟩
    simpa [same] using unseen
  · intro free listed
    obtain ⟨b,mem,same⟩ := List.mem_map.mp listed
    have bound := (mem_ownBindings.mp (List.mem_filter.mp mem).1).1
    rw [(find?_eq_some_iff (tidy.distinct id)).mpr ⟨bound,same⟩] at free
    cases free

theorem mem_visibleFrom_iff (tidy : store.Tidy config) {depth : Nat} {seen : List String} {v : Variable} :
    v ∈ store.visibleFrom depth seen (store.chain id) ↔
      v.name ∉ seen ∧ ∃ n, v.depth = depth + n ∧ store.Entry id n v := by
  induction id using Nat.strong_induction_on generalizing depth seen with
  | h id ih =>
    let own := ((ownBindings (store.frame id)).filter fun b => !seen.contains b.name).map Binding.name
    have further : v ∈ store.visibleFrom (depth + 1) (seen ++ own) (store.frame id).outer ↔
        v.name ∉ seen ∧ ∃ n, v.depth = depth + (n + 1) ∧ store.Entry id (n + 1) v := by
      simp only [tidy.entry_succ_iff]
      unfold parent?
      rcases tidy.layered id with outermost | ⟨parent,older,inside⟩
      · rw [outermost]
        simp [visibleFrom]
      · rw [inside,ih parent older,List.mem_append,not_or]
        constructor
        · rintro ⟨⟨unseen,absent⟩,n,deep,entry⟩
          obtain ⟨holder,b,_,_,bound,owned,_⟩ := entry.held
          obtain ⟨mem,named⟩ := Frame.mem_bindings_of_find? bound
          have free := (tidy.not_mem_own_iff unseen mem owned named).mp absent
          exact ⟨unseen,n,by omega,free,parent,rfl,entry⟩
        · rintro ⟨unseen,n,deep,free,other,around,entry⟩
          cases around
          obtain ⟨holder,b,_,_,bound,owned,_⟩ := entry.held
          obtain ⟨mem,named⟩ := Frame.mem_bindings_of_find? bound
          exact ⟨⟨unseen,(tidy.not_mem_own_iff unseen mem owned named).mpr free⟩,n,by omega,entry⟩
    rw [chain,visibleFrom,List.mem_append,tidy.mem_own_iff,further]
    constructor
    · rintro (⟨unseen,here,entry⟩ | ⟨unseen,n,deep,entry⟩)
      · exact ⟨unseen,0,here,entry⟩
      · exact ⟨unseen,n + 1,deep,entry⟩
    · rintro ⟨unseen,n,deep,entry⟩
      cases n with
      | zero => exact .inl ⟨unseen,deep,entry⟩
      | succ n => exact .inr ⟨unseen,n,deep,entry⟩

theorem mem_visible_iff (tidy : store.Tidy config) {v : Variable} :
    v ∈ store.visible id ↔ store.Entry id v.depth v := by
  rw [visible,tidy.mem_visibleFrom_iff]
  simp

theorem snapshot (tidy : store.Tidy config) (id : FrameId) : store.Snapshot config id (store.visible id) where
  once := by
    have apart := visibleFrom_ordered tidy.distinct (store.chain id) 0 []
    exact List.pairwise_map.mpr (apart.imp And.right)
  listed name := by
    rw [List.mem_map]
    constructor
    · rintro ⟨v,mem,rfl⟩
      obtain ⟨holder,b,_,nearest,bound,owned,value⟩ := (tidy.mem_visible_iff.mp mem).held
      refine ⟨⟨v.value,tidy.layered.get_eq_ok_iff.mpr ⟨holder,b,nearest,bound,value⟩⟩,fun installed => ?_⟩
      obtain ⟨inside,named⟩ := Frame.mem_bindings_of_find? bound
      rw [← named,← tidy.owned holder b inside,owned] at installed
      cases installed
    · rintro ⟨⟨a,found⟩,uninstalled⟩
      obtain ⟨holder,b,nearest,bound,value⟩ := tidy.layered.get_eq_ok_iff.mp found
      obtain ⟨inside,named⟩ := Frame.mem_bindings_of_find? bound
      have owned : b.library = false := by
        rw [← named,← tidy.owned holder b inside] at uninstalled
        exact Bool.eq_false_iff.mpr uninstalled
      obtain ⟨n,leads⟩ := nearest.1.ancestor
      classical
      let again := ∃ m > n, ∃ further, store.ancestor? id m = some further ∧ (store.frame further).binds name
      let v : Variable := { name := name, value := a, depth := n, shadows := decide again }
      have entry : store.Entry id n v := ⟨⟨holder,b,leads,nearest,bound,owned,value⟩,decide_eq_true_iff⟩
      exact ⟨v,tidy.mem_visible_iff.mpr entry,rfl⟩
  value v mem := by
    obtain ⟨holder,b,_,nearest,bound,_,value⟩ := (tidy.mem_visible_iff.mp mem).held
    exact tidy.layered.get_eq_ok_iff.mpr ⟨holder,b,nearest,bound,value⟩
  depth v mem := by
    obtain ⟨holder,b,leads,nearest,_⟩ := (tidy.mem_visible_iff.mp mem).held
    exact ⟨holder,leads,nearest⟩
  shadows v mem := (tidy.mem_visible_iff.mp mem).shadows
  ordered := (visibleFrom_ordered tidy.distinct (store.chain id) 0 []).imp And.left

end Tidy

end Store

/-- Whatever a host does to a session and in whatever order, the list of the variables that the session shows agrees
with what the names stand for in the scope it is about, and so do the lists for all other scopes. They agree as well at
every moment of every program that is started in the session. -/
theorem snapshots_agree (config : Config) (calls : List HostCall) :
    let s := calls.foldl Session.apply (.ofConfig config)
    s.world.store.Snapshot config (s.world.monitor.scope.getD Store.global) s.visible ∧
    (∀ id, s.world.store.Snapshot config id (s.world.store.visible id)) ∧
    ∀ w, s.StartsIn w → ∀ (program : Program) (m : Moment), Reaches config (program.beginning w) m →
      ∀ id, m.world.store.Snapshot config id (m.world.store.visible id) := by
  intro s
  have tidy : s.world.store.Tidy config := Session.tidy_calls config calls
  refine ⟨tidy.snapshot _,tidy.snapshot,fun w starts program m reaches => ?_⟩
  exact (Session.tidy_reached config calls starts program reaches).snapshot

/-- A program that waits two blocks deep, where a name is bound that is bound outside of the blocks, too. -/
def shadowingText : String := "var x = 1; \x7b var y = 2; \x7b var x = 3; setPos(1, 1); print(x); \x7d \x7d"

/-- There it lists the inner one of the two, and behind it what is bound further out. -/
theorem snapshots_agree_shadowing :
    let s := [HostCall.compile shadowingText,.run].foldl Session.apply (.ofConfig {})
    s.state = .suspended ∧
      s.visible.map (fun v => (v.name,v.depth,v.shadows)) = [("x",0,true),("y",1,false)] ∧
      s.world.store.Snapshot {} (s.world.monitor.scope.getD Store.global) s.visible ∧
      ∀ (program : Program) (id : FrameId), let w := (program.beginning s.world).world
        w.store.Snapshot {} id (w.store.visible id) := by
  intro s
  have facts : s.state = .suspended ∧
      s.visible.map (fun v => (v.name,v.depth,v.shadows)) = [("x",0,true),("y",1,false)] := by
    decide +kernel
  obtain ⟨shown,_,moments⟩ := snapshots_agree {} [.compile shadowingText,.run]
  have starts : s.StartsIn s.world := .inl ⟨fun idle => (nomatch facts.1.symm.trans idle),rfl⟩
  exact ⟨facts.1,facts.2,shown,fun program => moments s.world starts program _ .refl⟩

end TurtleScript
