import TurtleScript.Proofs.LibraryNames
import TurtleScript.Proofs.TreeSpans
import TurtleScript.Proofs.UsedNames

/-!
Scopes and the text. A statement stands in the tree it was parsed into under a number of blocks and function bodies
(`Nests`), and a scope is inside a number of others. In a lexical store the two agree for every function that is held:
its scope is as deep as its declaration (`Value.Lexical`). Scopes are made inside older ones only (`Store.Scoped`), so
the scopes around one are never more than there are, lead to the global one and never come back (`Scoped.chain_last`,
`Scoped.chain_nodup`). Every step on the store keeps it lexical (`Action.Lexical`).
-/

namespace TurtleScript

/-- The statement stands under so many blocks and function bodies, counted from roots that stand under a number
themselves. -/
inductive Nests (roots : Nat → Stmt → Prop) : Nat → Stmt → Prop where
  | root {d : Nat} {s : Stmt} (root : roots d s) : Nests roots d s
  | block {d : Nat} {body : List Stmt} {span : Span} {s : Stmt} (outer : Nests roots d (.block body span))
      (mem : s ∈ body) : Nests roots (d + 1) s
  | body {d : Nat} {name : Name} {params : List Name} {body : List Stmt} {span : Span} {s : Stmt}
      (outer : Nests roots d (.function name params body span)) (mem : s ∈ body) : Nests roots (d + 1) s
  | yes {d : Nat} {test : Expr} {yes : Stmt} {no : Option Stmt} {span : Span}
      (outer : Nests roots d (.branch test yes no span)) : Nests roots d yes
  | no {d : Nat} {test : Expr} {yes no : Stmt} {span : Span}
      (outer : Nests roots d (.branch test yes (some no) span)) : Nests roots d no
  | loop {d : Nat} {test : Expr} {body : Stmt} {span : Span} (outer : Nests roots d (.loop test body span)) :
      Nests roots d body

/-- The statement stands under so many blocks and function bodies of the program. -/
def Program.Nests (program : Program) : Nat → Stmt → Prop :=
  TurtleScript.Nests fun d s => d = 0 ∧ s ∈ program.statements

/-- A statement that opens a scope: a block, or the declaration of a function, whose calls do. -/
def Stmt.Opens : Stmt → Prop
  | .block _ _ | .function _ _ _ _ => True
  | _ => False

mutual

/-- How many blocks and function bodies are inside each other in a statement. -/
def Stmt.nesting : Stmt → Nat
  | .block body _ => 1 + Stmt.nestingAll body
  | .function _ _ body _ => 1 + Stmt.nestingAll body
  | .branch _ yes no _ => max yes.nesting (Stmt.nestingOption no)
  | .loop _ body _ => body.nesting
  | _ => 0

def Stmt.nestingOption : Option Stmt → Nat
  | some s => s.nesting
  | none => 0

def Stmt.nestingAll : List Stmt → Nat
  | [] => 0
  | s :: ss => max s.nesting (Stmt.nestingAll ss)

end

/-- How many blocks and function bodies are inside each other in a program. -/
def Program.nesting (program : Program) : Nat := Stmt.nestingAll program.statements

def SpanOf (roots : Nat → Stmt → Prop) (span : Span) : Prop := ∃ d s, roots d s ∧ span ∈ s.spans

section
variable {roots others : Nat → Stmt → Prop} {d : Nat} {s : Stmt}

theorem Nests.trans (nests : Nests roots d s) (inner : ∀ d s, roots d s → Nests others d s) : Nests others d s := by
  induction nests with
  | root root => exact inner _ _ root
  | block _ mem ih => exact .block ih mem
  | body _ mem ih => exact .body ih mem
  | yes _ ih => exact .yes ih
  | no _ ih => exact .no ih
  | loop _ ih => exact .loop ih

theorem Nests.spanned (nests : Nests roots d s) : s.Within (SpanOf roots) := by
  induction nests with
  | root root => exact fun span mem => ⟨_,_,root,mem⟩
  | block _ mem ih => exact fun span there => ih span (.tail _ (Stmt.mem_spansAll.mpr ⟨_,mem,there⟩))
  | body _ mem ih =>
    intro span there
    have inside := Stmt.mem_spansAll.mpr ⟨_,mem,there⟩
    exact ih span (.tail _ (.tail _ (List.mem_append_right _ inside)))
  | yes _ ih => exact fun span there => ih span (.tail _ (List.mem_append_right _ (List.mem_append_left _ there)))
  | no _ ih => exact fun span there => ih span (.tail _ (List.mem_append_right _ (List.mem_append_right _ there)))
  | loop _ ih => exact fun span there => ih span (.tail _ (List.mem_append_right _ there))

theorem Stmt.le_nestingAll {ss : List Stmt} (mem : s ∈ ss) : s.nesting ≤ Stmt.nestingAll ss := by
  induction mem with
  | head => exact Nat.le_max_left _ _
  | tail _ _ ih => exact Nat.le_trans ih (Nat.le_max_right _ _)

/-- No statement stands deeper than blocks and function bodies are inside each other. -/
theorem Program.Nests.le_nesting {program : Program} (nests : program.Nests d s) : d + s.nesting ≤ program.nesting := by
  induction nests with
  | root root =>
    obtain ⟨rfl,mem⟩ := root
    rw [Nat.zero_add]
    exact Stmt.le_nestingAll mem
  | block _ mem ih =>
    have inside := Stmt.le_nestingAll mem
    rw [Stmt.nesting] at ih
    omega
  | body _ mem ih =>
    have inside := Stmt.le_nestingAll mem
    rw [Stmt.nesting] at ih
    omega
  | yes _ ih =>
    rw [Stmt.nesting] at ih
    omega
  | no _ ih =>
    rw [Stmt.nesting,Stmt.nestingOption] at ih
    omega
  | loop _ ih =>
    rw [Stmt.nesting] at ih
    exact ih

theorem Program.Nests.lt_nesting {program : Program} (nests : program.Nests d s) (opens : s.Opens) :
    d < program.nesting := by
  have bound := nests.le_nesting
  cases s with
  | block body span =>
    rw [Stmt.nesting] at bound
    omega
  | function name params body span =>
    rw [Stmt.nesting] at bound
    omega
  | _ => exact opens.elim

end

namespace Store

/-- Every scope but the global one was made inside an older one. -/
structure Scoped (store : Store) : Prop where
  some_frame : global < store.frames.size
  outermost : (store.frame global).outer = []
  inner : ∀ id < store.frames.size, id ≠ global → ∃ parent < id, (store.frame id).outer = store.chain parent

/-- The scope is inside so many others. -/
structure Deep (store : Store) (id : FrameId) (d : Nat) : Prop where
  there : id < store.frames.size
  length : (store.chain id).length = 1 + d

/-- No scope is lost, and each stays inside the scopes it was made in. -/
structure Grows (store later : Store) : Prop where
  size : store.frames.size ≤ later.frames.size
  outer : ∀ id < store.frames.size, (later.frame id).outer = (store.frame id).outer

variable {store later : Store} {id parent : FrameId} {d : Nat}

theorem Grows.refl (store : Store) : store.Grows store := ⟨Nat.le_refl _,fun _ _ => rfl⟩

theorem Grows.chain (grows : store.Grows later) (there : id < store.frames.size) : later.chain id = store.chain id := by
  unfold Store.chain
  rw [grows.outer id there]

theorem Deep.grow (deep : store.Deep id d) (grows : store.Grows later) : later.Deep id d := by
  refine ⟨Nat.lt_of_lt_of_le deep.there grows.size,?_⟩
  rw [grows.chain deep.there]
  exact deep.length

theorem grows_changeFrame {f : Frame → Frame} (kept : ∀ frame, (f frame).outer = frame.outer) :
    store.Grows (store.changeFrame id f) := by
  refine ⟨Nat.le_of_eq (size_changeFrame id f).symm,fun other _ => ?_⟩
  rcases store.frame_changeFrame_or id other f with same | same
  · rw [same,kept]
  · rw [same]

theorem grows_child (parent : FrameId) : store.Grows (store.child parent).2 := by
  refine ⟨?_,fun id there => ?_⟩
  · rw [size_child]
    omega
  · rw [frame_child,if_neg (Nat.ne_of_lt there)]

namespace Scoped

theorem chain_decreasing (scopes : store.Scoped) :
    ∀ id < store.frames.size, (store.chain id).Pairwise fun inner outer => outer < inner := by
  intro id
  induction id using Nat.strong_induction_on with
  | h id ih =>
    intro there
    unfold chain
    by_cases outermost : id = global
    · rw [outermost,scopes.outermost]
      exact .cons nofun .nil
    · obtain ⟨parent,older,outer⟩ := scopes.inner id there outermost
      have further := ih parent older (Nat.lt_trans older there)
      rw [outer]
      refine .cons (fun other mem => ?_) further
      rcases List.mem_cons.mp mem with rfl | mem
      · exact older
      · exact Nat.lt_trans (List.rel_of_pairwise_cons further mem) older

theorem chain_nodup (scopes : store.Scoped) (there : id < store.frames.size) : (store.chain id).Nodup :=
  (scopes.chain_decreasing id there).imp fun younger => (Nat.ne_of_lt younger).symm

theorem chain_last (scopes : store.Scoped) :
    ∀ id < store.frames.size, (store.chain id).getLast? = some global := by
  intro id
  induction id using Nat.strong_induction_on with
  | h id ih =>
    intro there
    unfold chain
    by_cases outermost : id = global
    · rw [outermost,scopes.outermost]
      rfl
    · obtain ⟨parent,older,outer⟩ := scopes.inner id there outermost
      rw [outer,List.getLast?_cons,ih parent older (Nat.lt_trans older there)]
      rfl

theorem global_deep (scopes : store.Scoped) : store.Deep global 0 := by
  refine ⟨scopes.some_frame,?_⟩
  unfold chain
  rw [scopes.outermost]
  rfl

theorem changeFrame (scopes : store.Scoped) {f : Frame → Frame} (kept : ∀ frame, (f frame).outer = frame.outer) :
    (store.changeFrame id f).Scoped := by
  have grows : store.Grows (store.changeFrame id f) := grows_changeFrame kept
  refine ⟨?_,?_,fun other there inner => ?_⟩
  · rw [size_changeFrame]
    exact scopes.some_frame
  · rw [grows.outer _ scopes.some_frame]
    exact scopes.outermost
  · rw [size_changeFrame] at there
    obtain ⟨parent,older,outer⟩ := scopes.inner other there inner
    rw [grows.outer other there,outer]
    exact ⟨parent,older,(grows.chain (Nat.lt_trans older there)).symm⟩

theorem child (scopes : store.Scoped) (there : parent < store.frames.size) : (store.child parent).2.Scoped := by
  have grows := store.grows_child parent
  refine ⟨Nat.lt_of_lt_of_le scopes.some_frame grows.size,?_,fun id inside inner => ?_⟩
  · rw [grows.outer _ scopes.some_frame]
    exact scopes.outermost
  · by_cases new : id = store.frames.size
    · refine ⟨parent,new ▸ there,?_⟩
      rw [grows.chain there,frame_child,if_pos new]
    · rw [size_child] at inside
      have old : id < store.frames.size := by omega
      obtain ⟨outer,older,same⟩ := scopes.inner id old inner
      rw [grows.outer id old,same]
      exact ⟨outer,older,(grows.chain (Nat.lt_trans older old)).symm⟩

theorem child_deep (deep : store.Deep parent d) : (store.child parent).2.Deep (store.child parent).1 (d + 1) := by
  refine ⟨?_,?_⟩
  · rw [size_child]
    exact Nat.lt_succ_self _
  · unfold Store.chain
    rw [frame_child,if_pos (show (store.child parent).1 = store.frames.size from rfl),List.length_cons,deep.length]
    omega

theorem of_frames (scopes : store.Scoped) (same : later.frames = store.frames) : later.Scoped := by
  refine ⟨?_,?_,?_⟩
  · rw [same]
    exact scopes.some_frame
  · rw [frame_of_frames same]
    exact scopes.outermost
  · rw [same,frame_of_frames same,chain_of_frames same]
    exact scopes.inner

end Scoped

theorem grows_of_frames (same : later.frames = store.frames) : store.Grows later := by
  exact ⟨Nat.le_of_eq (by rw [same]),fun id _ => by rw [frame_of_frames same]⟩

/-! What is held after a step was held before it, or is what the step stores. -/

theorem holds_changeFrame {f : Frame → Frame} {a : Value} (held : (store.changeFrame id f).Holds a) :
    store.Holds a ∨ ∃ other, ∃ b ∈ (f (store.frame other)).bindings, b.value = a := by
  rcases held with ⟨other,b,mem,rfl⟩ | items
  · rcases store.frame_changeFrame_or id other f with same | same
    · exact .inr ⟨other,b,same ▸ mem,rfl⟩
    · exact .inl (.inl ⟨other,b,same ▸ mem,rfl⟩)
  · exact .inl (.inr items)

theorem holds_bind {name : String} {a stored : Value}
    (held : (store.bind id { name := name, value := stored }).Holds a) : store.Holds a ∨ a = stored := by
  rcases holds_changeFrame held with old | ⟨other,b,mem,rfl⟩
  · exact .inl old
  · rcases List.mem_append.mp mem with old | new
    · exact .inl (.inl ⟨other,b,old,rfl⟩)
    · rw [List.mem_singleton.mp new]
      exact .inr rfl

theorem holds_put {name : String} {a stored : Value} (held : (store.put id name stored).Holds a) :
    store.Holds a ∨ a = stored := by
  rcases holds_changeFrame held with old | ⟨other,b,mem,rfl⟩
  · exact .inl old
  · obtain ⟨before,there,rfl⟩ := List.mem_map.mp mem
    split
    · exact .inr rfl
    · exact .inl (.inl ⟨other,before,there,rfl⟩)

theorem holds_child {a : Value} (held : (store.child parent).2.Holds a) : store.Holds a := by
  rcases held with ⟨id,b,mem,rfl⟩ | items
  · rw [frame_child] at mem
    split at mem
    · cases mem
    · exact .inl ⟨id,b,mem,rfl⟩
  · exact .inr items

theorem holds_newArray {items : List Value} {a : Value} (held : (store.newArray items).2.Holds a) :
    store.Holds a ∨ a ∈ items := by
  rcases held with bound | ⟨id,mem⟩
  · exact .inl (.inl bound)
  · rcases items_newArray mem with new | old
    · exact .inr new
    · exact .inl (.inr ⟨id,old⟩)

theorem holds_of_get {name : String} {a : Value} (found : store.get id name = .ok a) : store.Holds a := by
  unfold Store.get Store.binding? at found
  split at found
  case h_1 b there =>
    cases found
    obtain ⟨holder,_,bound⟩ := List.exists_of_findSome?_eq_some there
    exact .inl ⟨holder,b,(Frame.mem_bindings_of_find? bound).1,rfl⟩
  case h_2 => cases found

end Store

/-! ### Lexical stores -/

/-- The function is in a scope as deep as its declaration. -/
def Closure.Lexical (roots : Nat → Stmt → Prop) (store : Store) (c : Closure) : Prop :=
  ∃ d span, Nests roots d (.function c.name c.params c.body span) ∧ store.Deep c.scope d

/-- A value whose function, if it is a declared one, is in a scope as deep as its declaration. -/
def Value.Lexical (roots : Nat → Stmt → Prop) (store : Store) (a : Value) : Prop :=
  ∀ c, a = .function (.declared c) → c.Lexical roots store

def Value.LexicalAll (roots : Nat → Stmt → Prop) (store : Store) (as : List Value) : Prop :=
  ∀ a ∈ as, a.Lexical roots store

def Flow.Lexical (roots : Nat → Stmt → Prop) (store : Store) (flow : Flow) : Prop :=
  ∀ a, flow = .returned a → a.Lexical roots store

/-- The global scope, or one that is as deep as the statement that has opened it. -/
def Store.Opened (roots : Nat → Stmt → Prop) (store : Store) (id : FrameId) : Prop :=
  store.Deep id 0 ∨ ∃ d s, Nests roots d s ∧ s.Opens ∧ store.Deep id (d + 1)

/-- Scopes are inside each other, and as deep as the declarations of the functions in them. -/
structure Store.Lexical (roots : Nat → Stmt → Prop) (store : Store) : Prop where
  scopes : store.Scoped
  held : ∀ a, store.Holds a → a.Lexical roots store

section
variable {roots others : Nat → Stmt → Prop} {store later : Store} {a : Value}

theorem Value.Plain.lexical (plain : a.Plain) : a.Lexical roots store := by
  rintro c rfl
  exact plain.elim

theorem Closure.Lexical.grow {c : Closure} (lexical : c.Lexical roots store) (grows : store.Grows later) :
    c.Lexical roots later := by
  obtain ⟨d,span,nests,deep⟩ := lexical
  exact ⟨d,span,nests,deep.grow grows⟩

theorem Value.Lexical.grow (lexical : a.Lexical roots store) (grows : store.Grows later) : a.Lexical roots later :=
  fun c same => (lexical c same).grow grows

theorem Value.LexicalAll.grow {as : List Value} (lexical : Value.LexicalAll roots store as) (grows : store.Grows later) :
    Value.LexicalAll roots later as :=
  fun a mem => (lexical a mem).grow grows

theorem Store.Opened.grow {id : FrameId} (opened : store.Opened roots id) (grows : store.Grows later) :
    later.Opened roots id := by
  rcases opened with outermost | ⟨d,s,nests,opens,deep⟩
  · exact .inl (outermost.grow grows)
  · exact .inr ⟨d,s,nests,opens,deep.grow grows⟩

/-- The same is lexical where declarations stand somewhere else, as long as they are as deep there. -/
theorem Store.Lexical.trans (lexical : store.Lexical roots)
    (inner : ∀ {d name params body span}, Nests roots d (.function name params body span) →
      Nests others d (.function name params body span)) : store.Lexical others := by
  refine ⟨lexical.scopes,fun a held c same => ?_⟩
  obtain ⟨d,span,nests,deep⟩ := lexical.held a held c same
  exact ⟨d,span,inner nests,deep⟩

theorem Store.initial_lexical (config : Config) : (Store.initial config).Lexical roots := by
  have guarded : (Store.initial config).Guarded config := Store.initial_guarded
  refine ⟨⟨guarded.some_frame,guarded.outermost,fun id there inner => ?_⟩,fun a held c same => ?_⟩
  · exact absurd (Nat.lt_one_iff.mp there) inner
  · rcases held with ⟨id,b,mem,rfl⟩ | ⟨id,mem⟩
    · rw [Store.initial_frame] at mem
      split at mem
      · obtain ⟨⟨name,value⟩,entry,rfl⟩ := List.mem_map.mp mem
        have nowhere : ({ frames := #[] } : Store).Rooted value := Library.rooted_of_installed entry
        exact absurd (nowhere c same) (Nat.not_lt_zero _)
      · cases mem
    · cases mem

theorem Store.empty_lexical : ({} : Store).Lexical roots := by
  refine ⟨⟨Nat.one_pos,rfl,fun id there inner => absurd (Nat.lt_one_iff.mp there) inner⟩,fun a held => ?_⟩
  have nothing : ∀ id, (({} : Store).frame id).bindings = [] := by
    intro id
    cases id <;> rfl
  rcases held with ⟨id,b,mem,_⟩ | ⟨id,mem⟩
  · rw [nothing id] at mem
    cases mem
  · cases mem

/-- A later store is lexical if it holds nothing but what was lexical before. -/
theorem Store.Grows.lexical (grows : store.Grows later) (scopes : later.Scoped)
    (held : ∀ a, later.Holds a → a.Lexical roots store) : later.Lexical roots :=
  ⟨scopes,fun a holds => (held a holds).grow grows⟩

end

/-- From a scene with a lexical store a step leads to a later one, with a result as expected. -/
structure Action.Lexical {α : Type} (roots : Nat → Stmt → Prop) (s : Scene) (action : Action α)
    (post : Store → α → Prop) : Prop where
  contained : action.Contained
  grows : s.store.Grows (action.onScene s).2.store
  lexical : (action.onScene s).2.store.Lexical roots
  result : ∀ a, (action.onScene s).1 = .ok a → post (action.onScene s).2.store a

namespace Action

variable {α : Type} {roots : Nat → Stmt → Prop} {s : Scene} {post : Store → α → Prop}

theorem lexical_inquire (lexical : s.store.Lexical roots) {f : Store → Except Fault α}
    (found : ∀ a, f s.store = .ok a → post s.store a) : (inquire f).Lexical roots s post := by
  refine ⟨contained_inquire f,?_,?_,?_⟩
  · rw [onScene_inquire]
    exact .refl _
  · rw [onScene_inquire]
    exact lexical
  · rw [onScene_inquire]
    exact found

theorem lexical_renew {f : Store → α × Store} (grows : s.store.Grows (f s.store).2)
    (lexical : (f s.store).2.Lexical roots) (result : post (f s.store).2 (f s.store).1) :
    (renew f).Lexical roots s post := by
  refine ⟨contained_renew f,grows,lexical,fun a same => ?_⟩
  cases same
  exact result

theorem lexical_alter {β : Type} (lexical : s.store.Lexical roots) (f : Store → Except Fault β) {g : β → Store → Store}
    (grows : ∀ b, s.store.Grows (g b s.store)) (kept : ∀ b, (g b s.store).Lexical roots) :
    (do alter (g (← inquire f))).Lexical roots s fun _ _ => True := by
  have contained : (do alter (g (← inquire f))).Contained :=
    contained_bind (contained_inquire f) fun _ => contained_alter _
  cases answer : f s.store with
  | error fault =>
    have out : (do alter (g (← inquire f))).onScene s = (.error fault,s) := by
      rw [onScene_bind _ fun _ => contained_alter _,onScene_inquire,answer]
    refine ⟨contained,?_,?_,fun _ _ => trivial⟩
    · rw [out]
      exact .refl _
    · rw [out]
      exact lexical
  | ok b =>
    have out : (do alter (g (← inquire f))).onScene s = (.ok (),{ s with store := g b s.store }) := by
      rw [onScene_bind _ fun _ => contained_alter _,onScene_inquire,answer]
      rfl
    refine ⟨contained,?_,?_,fun _ _ => trivial⟩
    · rw [out]
      exact grows b
    · rw [out]
      exact kept b

theorem lexical_define (lexical : s.store.Lexical roots) (id : FrameId) (name : String) {a : Value}
    (fits : a.Lexical roots s.store) : (define id name a).Lexical roots s fun _ _ => True := by
  have grows : s.store.Grows (s.store.bind id { name := name, value := a }) := Store.grows_changeFrame fun _ => rfl
  refine lexical_alter (g := fun _ store => store.bind id { name := name, value := a }) lexical _ (fun _ => grows)
    fun _ => ?_
  refine grows.lexical (lexical.scopes.changeFrame fun _ => rfl) fun other held => ?_
  rcases Store.holds_bind held with old | rfl
  · exact lexical.held other old
  · exact fits

theorem lexical_assign (lexical : s.store.Lexical roots) (id : FrameId) (name : String) {a : Value}
    (fits : a.Lexical roots s.store) : (assign id name a).Lexical roots s fun _ _ => True := by
  have grows : ∀ holder, s.store.Grows (s.store.put holder name a) := fun _ => Store.grows_changeFrame fun _ => rfl
  refine lexical_alter (g := fun holder store => store.put holder name a) lexical _ grows fun holder => ?_
  refine (grows holder).lexical (lexical.scopes.changeFrame fun _ => rfl) fun other held => ?_
  rcases Store.holds_put held with old | rfl
  · exact lexical.held other old
  · exact fits

theorem lexical_child (lexical : s.store.Lexical roots) {parent : FrameId} {d : Nat} (deep : s.store.Deep parent d) :
    (renew (·.child parent)).Lexical roots s fun store id => store.Deep id (d + 1) := by
  have grows := s.store.grows_child parent
  refine lexical_renew grows ?_ (Store.Scoped.child_deep deep)
  exact grows.lexical (lexical.scopes.child deep.there) fun a held => lexical.held a (Store.holds_child held)

theorem lexical_newArray (lexical : s.store.Lexical roots) {items : List Value}
    (fits : Value.LexicalAll roots s.store items) :
    (renew (·.newArray items)).Lexical roots s (Value.Lexical roots) := by
  have grows : s.store.Grows (s.store.newArray items).2 := Store.grows_of_frames rfl
  refine lexical_renew grows ?_ (fun _ same => nomatch same)
  refine grows.lexical (lexical.scopes.of_frames rfl) fun a held => ?_
  rcases Store.holds_newArray held with old | new
  · exact lexical.held a old
  · exact fits a new

theorem lexical_newClosure (lexical : s.store.Lexical roots) {scope : FrameId} {d : Nat} {name : Name}
    {params : List Name} {body : List Stmt} {span : Span} (nests : Nests roots d (.function name params body span))
    (deep : s.store.Deep scope d) :
    (renew (·.newClosure scope name params body)).Lexical roots s (Value.Lexical roots) := by
  have grows : s.store.Grows (s.store.newClosure scope name params body).2 := Store.grows_of_frames rfl
  refine lexical_renew grows ?_ fun c same => ?_
  · exact grows.lexical (lexical.scopes.of_frames rfl) lexical.held
  · cases same
    exact ⟨d,span,nests,deep.grow grows⟩

/-- A library function gives and stores nothing but what it was given or found. -/
theorem lexical_apply (lexical : s.store.Lexical roots) (b : Builtin) {args : List Value}
    (fits : Value.LexicalAll roots s.store args) : (b.apply args).Lexical roots s (Value.Lexical roots) := by
  have effect := b.effect args s
  have grows := Store.grows_of_frames effect.frames_eq
  obtain ⟨items,given⟩ := effect.carries (fun _ => Value.Plain.lexical) fits fun id a mem =>
    lexical.held a (.inr ⟨id,mem⟩)
  refine ⟨b.contained_apply args,grows,grows.lexical (lexical.scopes.of_frames effect.frames_eq) fun a held => ?_,
    fun a same => (given a same).grow grows⟩
  rcases held with ⟨id,bound⟩ | ⟨id,mem⟩
  · rw [Store.frame_of_frames effect.frames_eq] at bound
    exact lexical.held a (.inl ⟨id,bound⟩)
  · exact items id a mem

end Action

end TurtleScript
