import TurtleScript.Proofs.Evaluation
import TurtleScript.Proofs.Frameless
import TurtleScript.Proofs.LexicalScopes
import TurtleScript.Proofs.Runs

/-!
Scopes that are never used. Nothing is ever bound in a hollow scope, so a name stands for the same with it among the
scopes around as without (`Store.Beside.get`). Two runs go side by side if their worlds differ in hollow scopes only
(`World.Beside`), whatever becomes hollow on the way (`Script.Along`). So do an expression and itself, a call and itself
and a statement and itself (`eval_along`, `exec_along`, `invokeWithin_along`), even if the one is executed in a hollow
scope and the other in the scope around that, as long as the statement binds nothing in its own scope.
-/

namespace TurtleScript

/-- Two chains of scopes are the same but for hollow ones, and lead out to the same scope. -/
structure Chains (hollow left right : List FrameId) : Prop where
  same : left.filter (· ∉ hollow) = right.filter (· ∉ hollow)
  last : left.getLast? = right.getLast?

namespace Chains

variable {hollow more left right : List FrameId} {id : FrameId}

theorem refl (chain : List FrameId) : Chains hollow chain chain := ⟨rfl,rfl⟩

theorem mono (chains : Chains hollow left right) (subset : hollow ⊆ more) : Chains more left right := by
  have further : ∀ chain : List FrameId, chain.filter (· ∉ more) = (chain.filter (· ∉ hollow)).filter (· ∉ more) := by
    intro chain
    rw [List.filter_filter]
    refine List.filter_congr fun id _ => ?_
    by_cases mem : id ∈ hollow
    · simp [subset mem]
    · simp [mem]
  refine ⟨?_,chains.last⟩
  rw [further left,further right,chains.same]

theorem cons (chains : Chains hollow left right) (id : FrameId) : Chains hollow (id :: left) (id :: right) := by
  refine ⟨?_,?_⟩
  · rw [List.filter_cons,List.filter_cons,chains.same]
  · rw [List.getLast?_cons,List.getLast?_cons,chains.last]

theorem skip (chains : Chains hollow (id :: left) right) {inner : FrameId} (mem : inner ∈ hollow) :
    Chains hollow (inner :: id :: left) right := by
  refine ⟨?_,?_⟩
  · rw [List.filter_cons_of_neg (by simpa using mem),chains.same]
  · rw [List.getLast?_cons_cons,chains.last]

theorem findSome? (chains : Chains hollow left right) {β : Type} {f : FrameId → Option β}
    (nothing : ∀ id ∈ hollow, f id = none) : left.findSome? f = right.findSome? f := by
  have aside : ∀ chain : List FrameId, (chain.filter (· ∉ hollow)).findSome? f = chain.findSome? f := by
    intro chain
    induction chain with
    | nil => rfl
    | cons id chain ih =>
      by_cases mem : id ∈ hollow
      · rw [List.filter_cons_of_neg (by simpa using mem),List.findSome?_cons,nothing id mem,ih]
      · rw [List.filter_cons_of_pos (by simpa using mem),List.findSome?_cons,List.findSome?_cons,ih]
  rw [← aside left,← aside right,chains.same]

theorem find? (chains : Chains hollow left right) {p : FrameId → Bool} (nothing : ∀ id ∈ hollow, p id = false) :
    left.find? p = right.find? p := by
  rw [← List.findSome?_guard,← List.findSome?_guard]
  refine chains.findSome? fun id mem => ?_
  rw [Option.guard,nothing id mem]
  rfl

end Chains

/-- Two stores that differ only in which hollow scopes are around the others. In those nothing is bound. -/
structure Store.Beside (hollow : List FrameId) (left right : Store) : Prop where
  size : right.frames.size = left.frames.size
  arrays : right.arrays = left.arrays
  closures : right.closures = left.closures
  bindings : ∀ id, (right.frame id).bindings = (left.frame id).bindings
  chains : ∀ id, Chains hollow (left.chain id) (right.chain id)
  there : ∀ id ∈ hollow, id < left.frames.size
  empty : ∀ id ∈ hollow, (left.frame id).bindings = []

namespace Store

variable {hollow : List FrameId} {left right : Store} {a b : FrameId}

theorem Beside.refl {store : Store} (there : ∀ id ∈ hollow, id < store.frames.size)
    (empty : ∀ id ∈ hollow, (store.frame id).bindings = []) : store.Beside hollow store :=
  ⟨rfl,rfl,rfl,fun _ => rfl,fun _ => .refl _,there,empty⟩

theorem Beside.hollowed (beside : left.Beside hollow right) {id : FrameId} (there : id < left.frames.size)
    (empty : (left.frame id).bindings = []) : left.Beside (id :: hollow) right where
  size := beside.size
  arrays := beside.arrays
  closures := beside.closures
  bindings := beside.bindings
  chains other := (beside.chains other).mono (List.subset_cons_self _ _)
  there := List.forall_mem_cons.mpr ⟨there,beside.there⟩
  empty := List.forall_mem_cons.mpr ⟨empty,beside.empty⟩

theorem Beside.find? (beside : left.Beside hollow right) (id : FrameId) (name : String) :
    (right.frame id).find? name = (left.frame id).find? name := by
  unfold Frame.find?
  rw [beside.bindings id]

theorem Beside.binds (beside : left.Beside hollow right) (id : FrameId) (name : String) :
    (right.frame id).binds name = (left.frame id).binds name := by
  unfold Frame.binds
  rw [beside.find? id name]

theorem Beside.find?_hollow (beside : left.Beside hollow right) {id : FrameId} (mem : id ∈ hollow) (name : String) :
    (left.frame id).find? name = none := by
  unfold Frame.find?
  rw [beside.empty id mem]
  rfl

theorem Beside.get (beside : left.Beside hollow right) (chains : Chains hollow (left.chain a) (right.chain b))
    (name : String) : right.get b name = left.get a name := by
  have found : right.binding? b name = left.binding? a name := by
    unfold binding?
    rw [chains.findSome? fun id mem => beside.find?_hollow mem name]
    simp only [beside.find?]
  unfold Store.get
  rw [found]

theorem Beside.assignable (beside : left.Beside hollow right)
    (chains : Chains hollow (left.chain a) (right.chain b)) (name : String) :
    right.assignable b name = left.assignable a name := by
  have held : right.holder? b name = left.holder? a name := by
    unfold holder?
    simp only [beside.binds]
    refine (chains.find? fun id mem => ?_).symm
    unfold Frame.binds
    rw [beside.find?_hollow mem name]
    rfl
  unfold Store.assignable
  rw [held]
  simp only [beside.find?]

theorem Beside.definable (beside : left.Beside hollow right) (id : FrameId) (name : String) :
    right.definable id name = left.definable id name := by
  have root : right.rootOf id = left.rootOf id := by
    unfold rootOf
    rw [List.getLastD_eq_getLast?,List.getLastD_eq_getLast?,(beside.chains id).last]
  unfold Store.definable isProtected
  rw [root,beside.find?,beside.binds]

/-- The same change in both keeps stores side by side, if it binds nothing in a hollow scope. -/
theorem Beside.changeFrame (beside : left.Beside hollow right) (id : FrameId) {f : Frame → Frame}
    (kept : ∀ frame, (f frame).outer = frame.outer)
    (same : ∀ first second : Frame, first.bindings = second.bindings → (f first).bindings = (f second).bindings)
    (empty : id ∈ hollow → (f (left.frame id)).bindings = []) :
    (left.changeFrame id f).Beside hollow (right.changeFrame id f) := by
  by_cases there : id < left.frames.size
  · have there' : id < right.frames.size := beside.size ▸ there
    have outer : ∀ (store : Store) other, ((store.changeFrame id f).frame other).outer = (store.frame other).outer := by
      intro store other
      rcases store.frame_changeFrame_or id other f with changed | unchanged
      · rw [changed,kept]
      · rw [unchanged]
    refine ⟨?_,beside.arrays,beside.closures,fun other => ?_,fun other => ?_,fun other mem => ?_,fun other mem => ?_⟩
    · rw [size_changeFrame,size_changeFrame,beside.size]
    · rw [frame_changeFrame there,frame_changeFrame there']
      split
      · exact same _ _ (beside.bindings other)
      · exact beside.bindings other
    · unfold Store.chain
      rw [outer,outer]
      exact beside.chains other
    · rw [size_changeFrame]
      exact beside.there other mem
    · rw [frame_changeFrame there]
      split
      case isTrue same =>
        subst same
        exact empty mem
      case isFalse => exact beside.empty other mem
  · have unchanged : ∀ store : Store, store.frames.size = left.frames.size → store.changeFrame id f = store := by
      intro store size
      have frames : store.frames.modify id f = store.frames := by
        refine Array.ext_getElem? fun other => ?_
        rw [Array.getElem?_modify]
        split
        case isTrue same =>
          subst same
          have beyond : store.frames[id]? = none := Array.getElem?_eq_none (size ▸ Nat.le_of_not_lt there)
          rw [beyond,Option.map_none]
        case isFalse => rfl
      unfold Store.changeFrame
      rw [frames]
    rw [unchanged left rfl,unchanged right beside.size]
    exact beside

theorem Beside.put (beside : left.Beside hollow right) (id : FrameId) (name : String) (value : Value) :
    (left.put id name value).Beside hollow (right.put id name value) := by
  refine beside.changeFrame id (fun _ => rfl) (fun first second same => ?_) fun mem => ?_
  · exact congrArg (List.map _) same
  · exact List.map_eq_nil_iff.mpr (beside.empty id mem)

theorem Beside.bind (beside : left.Beside hollow right) {id : FrameId} (used : id ∉ hollow) (binding : Binding) :
    (left.bind id binding).Beside hollow (right.bind id binding) := by
  refine beside.changeFrame id (fun _ => rfl) (fun first second same => ?_) fun mem => absurd mem used
  exact congrArg (· ++ [binding]) same

theorem Beside.child (beside : left.Beside hollow right) (chains : Chains hollow (left.chain a) (right.chain b)) :
    (left.child a).2.Beside hollow (right.child b).2 where
  size := by rw [size_child,size_child,beside.size]
  arrays := beside.arrays
  closures := beside.closures
  bindings id := by
    rw [frame_child,frame_child,beside.size]
    split
    · rfl
    · exact beside.bindings id
  chains id := by
    unfold Store.chain
    rw [frame_child,frame_child,beside.size]
    split
    · exact chains.cons id
    · exact beside.chains id
  there id mem := by
    rw [size_child]
    exact Nat.lt_succ_of_lt (beside.there id mem)
  empty id mem := by
    rw [frame_child,if_neg (Nat.ne_of_lt (beside.there id mem))]
    exact beside.empty id mem

theorem Beside.withFrames (beside : left.Beside hollow right) {store : Store} (frames : store.frames = left.frames) :
    store.Beside hollow (store.withFrames right.frames) := by
  refine ⟨?_,rfl,rfl,?_,?_,?_,?_⟩
  · rw [frames]
    exact beside.size
  · rw [frame_of_frames frames]
    exact beside.bindings
  · rw [chain_of_frames frames]
    exact beside.chains
  · rw [frames]
    exact beside.there
  · rw [frame_of_frames frames]
    exact beside.empty

theorem Grows.trans {store later latest : Store} (first : store.Grows later) (second : later.Grows latest) :
    store.Grows latest := by
  refine ⟨Nat.le_trans first.size second.size,fun id there => ?_⟩
  rw [second.outer id (Nat.lt_of_lt_of_le there first.size),first.outer id there]

end Store

/-! ### Worlds and runs side by side -/

/-- Two worlds that differ only in hollow scopes, apart from the scopes that they are in and what the host is told. -/
structure World.Beside (hollow : List FrameId) (w v : World) : Prop where
  store : w.store.Beside hollow v.store
  sprite : v.sprite = w.sprite
  printed : v.printed = w.printed
  callDepth : v.callDepth = w.callDepth
  asked : v.monitor.killRequested = w.monitor.killRequested

/-- Two worlds that differ in hollow scopes, among them the given ones. -/
def Aside (hollow : List FrameId) (w v : World) : Prop := ∃ more, hollow ⊆ more ∧ w.Beside more v

/-- What two computations leave behind: further scopes, some of them hollow, and the scopes in which they were. -/
structure Ahead (hollow : List FrameId) (w v : World) (more : List FrameId) (w' v' : World) : Prop where
  kept : hollow ⊆ more
  new : ∀ id ∈ more, id < w.store.frames.size → id ∈ hollow
  left : w.store.Grows w'.store
  right : v.store.Grows v'.store
  scope : w'.scope = w.scope
  scope' : v'.scope = v.scope

def Ended (hollow : List FrameId) (w v w' v' : World) : Prop := ∃ more, w'.Beside more v' ∧ Ahead hollow w v more w' v'

/-- Two runs that wait at the same time and end with the same result, as long as their hosts do the same, in worlds that
are related wherever they wait and wherever they end. -/
def Run.Alongside {α : Type} (waits ends : World → World → Prop) : Run α → Run α → Prop
  | .done r w, .done r' v => r' = r ∧ ends w v
  | .waiting w f, .waiting v g => waits w v ∧ ∀ w' v', Handed w w' → Handed v v' → v'.sprite = w'.sprite →
    v'.monitor.killRequested = w'.monitor.killRequested → (f w').Alongside waits ends (g v')
  | _, _ => False

namespace Run.Alongside

variable {α β : Type} {waits waits' ends ends' : World → World → Prop} {run run' : Run α}

/-- What leaves waits alone takes runs side by side to runs side by side, if it does so where they end. -/
theorem through (along : run.Alongside waits ends run') (f g : Run α → Run β)
    (left : ∀ w m, f (.waiting w m) = .waiting w fun v => f (m v))
    (right : ∀ w m, g (.waiting w m) = .waiting w fun v => g (m v)) (implies : ∀ w v, waits w v → waits' w v)
    (ended : ∀ r w v, ends w v → (f (.done r w)).Alongside waits' ends' (g (.done r v))) :
    (f run).Alongside waits' ends' (g run') := by
  induction run generalizing run' with
  | done r w =>
    cases run' with
    | done r' v =>
      obtain ⟨rfl,worlds⟩ := along
      exact ended _ w v worlds
    | waiting => exact along.elim
  | waiting w resume ih =>
    cases run' with
    | done => exact along.elim
    | waiting v resume' =>
      rw [left,right]
      exact ⟨implies w v along.1,fun w' v' handed handed' sprite asked =>
        ih w' (along.2 w' v' handed handed' sprite asked)⟩

theorem mono (along : run.Alongside waits ends run') (first : ∀ w v, waits w v → waits' w v)
    (second : ∀ w v, ends w v → ends' w v) : run.Alongside waits' ends' run' :=
  along.through id id (fun _ _ => rfl) (fun _ _ => rfl) first fun _ w v worlds => ⟨rfl,second w v worlds⟩

theorem andThen {f g : α → World → Run β} (along : run.Alongside waits ends run')
    (next : ∀ a w v, ends w v → (f a w).Alongside waits ends' (g a v)) (same : ∀ w v, ends w v → ends' w v) :
    (run.andThen f).Alongside waits ends' (run'.andThen g) := by
  refine along.through (·.andThen f) (·.andThen g) (fun _ _ => rfl) (fun _ _ => rfl) (fun _ _ worlds => worlds) ?_
  intro r w v worlds
  cases r with
  | ok a => exact next a w v worlds
  | error e => exact ⟨rfl,same w v worlds⟩

theorem locate (along : run.Alongside waits ends run') (span : Span) :
    (run.locate span).Alongside waits ends (run'.locate span) :=
  along.through (·.locate span) (·.locate span) (fun _ _ => rfl) (fun _ _ => rfl) (fun _ _ worlds => worlds)
    fun _ _ _ worlds => ⟨rfl,worlds⟩

theorem atEnd (along : run.Alongside waits ends run') {f g : World → World}
    (kept : ∀ w v, ends w v → ends' (f w) (g v)) : (run.atEnd f).Alongside waits ends' (run'.atEnd g) :=
  along.through (·.atEnd f) (·.atEnd g) (fun _ _ => rfl) (fun _ _ => rfl) (fun _ _ worlds => worlds)
    fun _ w v worlds => ⟨rfl,kept w v worlds⟩

/-- Whatever the host of the first run does while it waits, the host of the second can do the same. -/
theorem resumes {w v w' : World} {m n : World → Run α} (along : Run.Alongside waits ends (.waiting w m) (.waiting v n))
    (handed : Handed w w') : ∃ v', (m w').Alongside waits ends (n v') :=
  let v' : World := { v with
    sprite := w'.sprite, monitor := { v.monitor with killRequested := w'.monitor.killRequested } }
  ⟨v',along.2 w' v' handed ⟨rfl,rfl,rfl,rfl,rfl,rfl⟩ rfl rfl⟩

theorem waits_beside (along : run.Alongside waits ends run') {u : World} (there : run.Waits u) :
    ∃ v, waits u v := by
  induction there generalizing run' with
  | here w resume =>
    cases run' with
    | done => exact along.elim
    | waiting v resume' => exact ⟨v,along.1⟩
  | @later w w' u resume handed _ ih =>
    cases run' with
    | done => exact along.elim
    | waiting v resume' =>
      obtain ⟨_,later⟩ := along.resumes handed
      exact ih later

theorem ends_beside (along : run.Alongside waits ends run') {r : Except Interruption α} {u : World}
    (there : run.Ends r u) : ∃ v, ends u v := by
  induction there generalizing run' with
  | done r w =>
    cases run' with
    | done r' v => exact ⟨v,along.2⟩
    | waiting => exact along.elim
  | @waiting w w' resume r u handed _ ih =>
    cases run' with
    | done => exact along.elim
    | waiting v resume' =>
      obtain ⟨_,later⟩ := along.resumes handed
      exact ih later

end Run.Alongside

end TurtleScript
