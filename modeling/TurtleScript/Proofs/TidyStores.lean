import TurtleScript.Proofs.Frameless
import TurtleScript.Proofs.ScopeForests

/-!
Tidy stores. Scopes are inside each other, each binds a name at most once, and the library owns the bindings of its
names and no others (`Store.Tidy`). Programs keep the store tidy (`tidiness_kept`), so it is tidy whatever a host does
to a session (`Session.tidy_calls`), and at every moment of a program that is started there (`Session.tidy_reached`).
-/

namespace TurtleScript

/-- Scopes are inside each other, none binds a name twice, and the bindings of the library are those of its names. -/
structure Store.Tidy (config : Config) (store : Store) : Prop where
  scopes : store.Scoped
  distinct : ∀ id, ((store.frame id).bindings.map Binding.name).Nodup
  owned : ∀ id, ∀ b ∈ (store.frame id).bindings, b.library = true ↔ b.name ∈ (Library.installed config).map Prod.fst

section
variable {config : Config} {store : Store} {id : FrameId} {name : String}

namespace Store

theorem frame_empty (id : FrameId) : ({} : Store).frame id = {} := by
  cases id <;> rfl

theorem empty_tidy (config : Config) : ({} : Store).Tidy config where
  scopes := by
    have lexical : ({} : Store).Lexical fun _ _ => False := empty_lexical
    exact lexical.scopes
  distinct id := by
    rw [frame_empty]
    exact .nil
  owned id b mem := by
    rw [frame_empty] at mem
    cases mem

theorem initial_tidy (config : Config) : (Store.initial config).Tidy config where
  scopes := by
    have lexical : (Store.initial config).Lexical fun _ _ => False := initial_lexical config
    exact lexical.scopes
  distinct id := by
    rw [initial_frame]
    split
    · rw [List.map_map]
      exact Library.installed_names_nodup
    · exact .nil
  owned id b mem := by
    rw [initial_frame] at mem
    split at mem
    · obtain ⟨entry,listed,rfl⟩ := List.mem_map.mp mem
      exact iff_of_true rfl (List.mem_map_of_mem listed)
    · cases mem

namespace Tidy

theorem changeFrame (tidy : store.Tidy config) {f : Frame → Frame} (outer : ∀ frame, (f frame).outer = frame.outer)
    (distinct : ((f (store.frame id)).bindings.map Binding.name).Nodup)
    (owned : ∀ b ∈ (f (store.frame id)).bindings,
      b.library = true ↔ b.name ∈ (Library.installed config).map Prod.fst) : (store.changeFrame id f).Tidy config := by
  have frame : ∀ other, (store.changeFrame id f).frame other = store.frame other ∨
      (store.changeFrame id f).frame other = f (store.frame id) := by
    intro other
    by_cases same : other = id
    · rw [same]
      exact (store.frame_changeFrame_or id id f).symm
    · exact .inl (frame_changeFrame_of_ne same f)
  refine ⟨tidy.scopes.changeFrame outer,fun other => ?_,fun other => ?_⟩
  · rcases frame other with same | same
    · rw [same]
      exact tidy.distinct other
    · rw [same]
      exact distinct
  · rcases frame other with same | same
    · rw [same]
      exact tidy.owned other
    · rw [same]
      exact owned

theorem put (tidy : store.Tidy config) (holder : FrameId) (name : String) (a : Value) :
    (store.put holder name a).Tidy config := by
  refine tidy.changeFrame (fun _ => rfl) ?_ fun b mem => ?_
  · have names : ((store.frame holder).assign name a).bindings.map Binding.name =
        (store.frame holder).bindings.map Binding.name := by
      unfold Frame.assign
      rw [List.map_map]
      refine List.map_congr_left fun b _ => ?_
      show (if _ then _ else _ : Binding).name = b.name
      split <;> rfl
    rw [names]
    exact tidy.distinct holder
  · obtain ⟨c,old,rfl⟩ := List.mem_map.mp mem
    have owned := tidy.owned holder c old
    split <;> exact owned

theorem bind (tidy : store.Tidy config) {a : Value} (free : (store.frame id).find? name = none)
    (uninstalled : name ∉ (Library.installed config).map Prod.fst) :
    (store.bind id { name := name, value := a }).Tidy config := by
  refine tidy.changeFrame (fun _ => rfl) ?_ fun b mem => ?_
  · rw [Frame.insert,List.map_append,List.nodup_append]
    refine ⟨tidy.distinct id,List.nodup_cons.mpr ⟨List.not_mem_nil,.nil⟩,fun other bound new last same => ?_⟩
    obtain ⟨b,old,rfl⟩ := List.mem_map.mp bound
    have different := List.find?_eq_none.mp free b old
    rw [List.mem_singleton.mp last] at same
    exact different (decide_eq_true same)
  · rcases List.mem_append.mp mem with old | new
    · exact tidy.owned id b old
    · rw [List.mem_singleton.mp new]
      exact iff_of_false Bool.false_ne_true uninstalled

theorem child (tidy : store.Tidy config) {parent : FrameId} (there : parent < store.frames.size) :
    (store.child parent).2.Tidy config := by
  refine ⟨tidy.scopes.child there,fun id => ?_,fun id b mem => ?_⟩
  · rw [frame_child]
    split
    · exact .nil
    · exact tidy.distinct id
  · rw [frame_child] at mem
    split at mem
    · cases mem
    · exact tidy.owned id b mem

theorem of_frames (tidy : store.Tidy config) {later : Store} (same : later.frames = store.frames) :
    later.Tidy config := by
  have frame := frame_of_frames same
  refine ⟨tidy.scopes.of_frames same,?_,?_⟩
  · rw [frame]
    exact tidy.distinct
  · rw [frame]
    exact tidy.owned

end Tidy

end Store

/-- The law that the store is tidy, with the library as it was installed. -/
def tidiness (config : Config) : Law where
  turtle _ := True
  holds s := s.store.Guarded config ∧ s.store.Tidy config
  scope s id := id < s.store.frames.size

theorem tidiness_kept : (tidiness config).Kept where
  turtle _ := trivial
  still _ := trivial
  handed held _ := ⟨held,fun _ allowed => allowed⟩
  global held := protection_kept.global held.1
  get held there found := protection_kept.get held.1 there found
  item held found := protection_kept.item held.1 found
  put {_ _ holder name a} held there fits free := by
    obtain ⟨guarded,later⟩ := protection_kept.put held.1 there fits free
    exact ⟨⟨guarded,held.2.put holder name a⟩,later⟩
  bind held there fits free := by
    obtain ⟨guarded,later⟩ := protection_kept.bind held.1 there fits free
    refine ⟨⟨guarded,held.2.bind (Store.free_of_definable free) fun installed => ?_⟩,later⟩
    obtain ⟨⟨name,value⟩,entry,rfl⟩ := List.mem_map.mp installed
    rw [held.1.definable_installed entry there] at free
    cases free
  newArray held fits := by
    obtain ⟨guarded,later⟩ := protection_kept.newArray held.1 fits
    exact ⟨⟨guarded,held.2.of_frames rfl⟩,later⟩
  newClosure id name params body held := by
    obtain ⟨guarded,later⟩ := protection_kept.newClosure id name params body held.1
    exact ⟨⟨guarded,held.2.of_frames rfl⟩,later⟩
  child held there := by
    obtain ⟨⟨guarded,later⟩,new⟩ := protection_kept.child held.1 there
    exact ⟨⟨⟨guarded,held.2.child there⟩,later⟩,new⟩
  apply {s} b args held fits := by
    obtain ⟨⟨guarded,later⟩,result⟩ := protection_kept.apply b held.1 fits
    exact ⟨⟨⟨guarded,held.2.of_frames ((b.frameless_apply args).frames s)⟩,later⟩,result⟩

end

theorem tidiness_fresh (config : Config) (x : Turtle.Sprite) (printed : Array String) :
    (tidiness config).holds ⟨.initial config,x,printed⟩ :=
  ⟨Store.initial_guarded,Store.initial_tidy config⟩

/-! ### Sessions -/

namespace Session

/-- Without a program there is nothing in the store. -/
def Bare (s : Session) : Prop := s.phase = .idle → s.world.store = {}

variable {s : Session} {config : Config}

theorem bare_settleIn (s : Session) (program : Program) (run : Run Flow) : (s.settleIn program run).Bare := by
  cases run with
  | done result w => exact nofun
  | waiting w resume => exact nofun

theorem Bare.kill (bare : s.Bare) : s.kill.Bare := by
  unfold Session.kill
  split
  · exact bare_settleIn _ _ _
  · exact nofun
  · exact bare

theorem Bare.abandon (bare : s.Bare) : s.abandon.Bare := by
  unfold Session.abandon
  split
  · exact bare.kill
  · exact bare

theorem Bare.resume (bare : s.Bare) : s.resume.Bare := by
  unfold Session.resume
  split
  · split
    · exact bare
    · exact bare_settleIn _ _ _
  · exact bare

theorem Bare.apply (bare : s.Bare) (call : HostCall) : (s.apply call).Bare := by
  cases call with
  | compile source =>
    show (s.compile source).2.Bare
    unfold Session.compile
    cases Program.compile source with
    | ok program => exact nofun
    | error diagnostics => exact fun _ => rfl
  | run =>
    show s.run.Bare
    unfold Session.run
    split
    · exact bare
    · exact bare_settleIn _ _ _
    · exact bare.resume
    · exact bare_settleIn _ _ _
  | resume => exact bare.resume
  | kill => exact bare.kill
  | runLine source =>
    show (s.runLine source).Bare
    unfold Session.runLine
    cases Program.compile source with
    | error diagnostics => exact bare.abandon
    | ok program =>
      simp only
      split <;> exact bare_settleIn _ _ _
  | draw f => exact bare

theorem Bare.calls (bare : s.Bare) (calls : List HostCall) : (calls.foldl Session.apply s).Bare := by
  induction calls generalizing s with
  | nil => exact bare
  | cons call calls ih => exact ih (bare.apply call)

theorem lawful_tidiness (config : Config) (calls : List HostCall) :
    (calls.foldl Session.apply (.ofConfig config)).Lawful (tidiness config) config := by
  refine (ofConfig_lawful config trivial).calls (fun x printed _ => tidiness_fresh config x printed) tidiness_kept ?_
  intro call _
  cases call with
  | draw f => exact fun _ _ => trivial
  | _ => exact trivial

theorem tidy_calls (config : Config) (calls : List HostCall) :
    (calls.foldl Session.apply (.ofConfig config)).world.store.Tidy config := by
  have bare : (calls.foldl Session.apply (.ofConfig config)).Bare := Bare.calls (fun _ => rfl) calls
  by_cases idle : (calls.foldl Session.apply (.ofConfig config)).phase = .idle
  · rw [bare idle]
    exact Store.empty_tidy config
  · exact ((lawful_tidiness config calls).loaded idle).1.2

/-- At every moment of every program that is started in a session, the store is tidy. -/
theorem tidy_reached (config : Config) (calls : List HostCall) {w : World}
    (starts : (calls.foldl Session.apply (.ofConfig config)).StartsIn w) (program : Program) {m : Moment}
    (reaches : Reaches config (program.beginning w) m) : m.world.store.Tidy config := by
  have lawful := lawful_tidiness config calls
  have holds : (tidiness config).holds w.scene := by
    rcases starts with ⟨loaded,rfl⟩ | rfl
    · exact (lawful.loaded (phase_ne_idle loaded)).1
    · exact lawful.refresh_holds fun x printed _ => tidiness_fresh config x printed
  have beginning : (program.beginning w).Under (tidiness config) :=
    ⟨⟨holds,tidiness_kept.global holds⟩,fun same => nomatch same⟩
  exact (reaches.under tidiness_kept (fun _ => trivial) beginning).inside.1.2

end Session

end TurtleScript
