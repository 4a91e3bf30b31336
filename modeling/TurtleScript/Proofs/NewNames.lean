import TurtleScript.Proofs.Assignments
import TurtleScript.Proofs.ParserSoundness
import TurtleScript.Proofs.SideBySide

/-!
Where names come from. Whatever is evaluated, called or executed, the scopes that were there before bind the names they
bound, and the library what it bound (`Frame.Keeps`), apart from those that a computation may add names to
(`Script.Confined`). An expression adds names to none, and neither does a call, since what the body of a function
declares is in a new scope (`eval_confined`, `invokeWithin_confined`). A statement adds names to its own scope at most,
and none there if it binds nothing in it (`exec_confined`); in what has been parsed, this is so for all statements but
declarations (`Program.bindless_of_nests`). So names are added by declarations, each its own name (`names_declared`).
-/

namespace TurtleScript

namespace Frame

/-- A name is bound as before: by the library or by the program, and by the library to the same value. -/
structure KeepsName (before after : Frame) (name : String) : Prop where
  flag : (after.find? name).map Binding.library = (before.find? name).map Binding.library
  library : ∀ b, before.find? name = some b → b.library = true → after.find? name = some b

/-- The same names are bound as before, with another value at most where the program has bound them. -/
def Keeps (before after : Frame) : Prop := ∀ name, before.KeepsName after name

/-- One name more is bound than before, by the program. -/
structure Gains (before after : Frame) (name : String) : Prop where
  fresh : before.find? name = none
  bound : ∃ b, after.find? name = some b ∧ b.library = false
  others : ∀ other ≠ name, before.KeepsName after other

variable {before between after frame : Frame} {name : String}

theorem KeepsName.of_eq (same : after.find? name = before.find? name) : before.KeepsName after name :=
  ⟨congrArg _ same,fun _ found _ => same.trans found⟩

theorem KeepsName.trans (first : before.KeepsName between name) (second : between.KeepsName after name) :
    before.KeepsName after name :=
  ⟨second.flag.trans first.flag,fun b found owned => second.library b (first.library b found owned) owned⟩

theorem Keeps.refl (frame : Frame) : frame.Keeps frame := fun _ => .of_eq rfl

theorem Keeps.trans (first : before.Keeps between) (second : between.Keeps after) : before.Keeps after :=
  fun name => (first name).trans (second name)

theorem Keeps.gains (first : before.Keeps between) (second : between.Gains after name) : before.Gains after name := by
  refine ⟨?_,second.bound,fun other different => (first other).trans (second.others other different)⟩
  have flag := (first name).flag
  rw [second.fresh] at flag
  exact Option.map_eq_none_iff.mp flag.symm

theorem keeps_assign {b : Binding} (bound : frame.find? name = some b) (owned : b.library = false) (value : Value) :
    frame.Keeps (frame.assign name value) := by
  intro other
  by_cases same : other = name
  · subst same
    refine ⟨?_,fun c found library => ?_⟩
    · rw [find?_assign,bound]
      rfl
    · rw [bound] at found
      cases found
      rw [owned] at library
      cases library
  · exact .of_eq (find?_assign_of_ne value same)

theorem gains_insert {b : Binding} (free : frame.find? b.name = none) (owned : b.library = false) :
    frame.Gains (frame.insert b) b.name :=
  ⟨free,⟨b,find?_insert free,owned⟩,fun _ different => .of_eq (find?_insert_of_ne different.symm)⟩

end Frame

/-- The scopes that are there stay, and bind the names they bound, apart from some that may bind more. -/
structure Store.Spares (opened : FrameId → Prop) (store later : Store) : Prop where
  size : store.frames.size ≤ later.frames.size
  keeps : ∀ id < store.frames.size, ¬ opened id → (store.frame id).Keeps (later.frame id)

namespace Store

variable {opened : FrameId → Prop} {store between later : Store} {id : FrameId} {name : String} {value : Value}

theorem Spares.trans (first : store.Spares opened between) (second : between.Spares opened later) :
    store.Spares opened later where
  size := Nat.le_trans first.size second.size
  keeps id there closed :=
    (first.keeps id there closed).trans (second.keeps id (Nat.lt_of_lt_of_le there first.size) closed)

theorem Spares.mono {more : FrameId → Prop} (spares : store.Spares opened later) (within : ∀ id, opened id → more id) :
    store.Spares more later :=
  ⟨spares.size,fun id there closed => spares.keeps id there fun open_ => closed (within id open_)⟩

theorem spares_of_frames (same : later.frames = store.frames) : store.Spares opened later := by
  refine ⟨Nat.le_of_eq (by rw [same]),fun id _ _ => ?_⟩
  rw [frame_of_frames same]
  exact .refl _

theorem spares_changeFrame {f : Frame → Frame} (keeps : ¬ opened id → (store.frame id).Keeps (f (store.frame id))) :
    store.Spares opened (store.changeFrame id f) := by
  refine ⟨Nat.le_of_eq (size_changeFrame id f).symm,fun other there closed => ?_⟩
  by_cases same : other = id
  · subst same
    rw [frame_changeFrame there,if_pos rfl]
    exact keeps closed
  · rw [frame_changeFrame_of_ne same]
    exact .refl _

theorem spares_assign (opened : FrameId → Prop) (store : Store) (id : FrameId) (name : String) (value : Value) :
    store.Spares opened (store.perform (.assign id name value)).2 := by
  show store.Spares opened (store.after (store.assign id name value)).2
  cases done : store.assign id name value with
  | error fault => exact spares_of_frames rfl
  | ok later =>
    obtain ⟨holder,b,_,bound,owned,rfl⟩ := assign_eq_ok_iff.mp done
    exact spares_changeFrame fun _ => Frame.keeps_assign bound owned value

theorem spares_define (inside : opened id) (store : Store) (name : String) (value : Value) (library : Bool) :
    store.Spares opened (store.perform (.define id name value library)).2 := by
  show store.Spares opened (store.after (store.define id _)).2
  cases done : store.define id { name := name, value := value, library := library } with
  | error fault => exact spares_of_frames rfl
  | ok later =>
    rw [(define_eq_ok done).2]
    exact spares_changeFrame fun closed => absurd inside closed

end Store

/-- The computation comes back to its scope, and adds names only to new scopes and to some that depend on the scope. -/
def Script.Confined {α : Type} (opened : FrameId → FrameId → Prop) (m : Script α) : Prop :=
  ∀ (w : World) (result : Except Interruption α) (v : World), (m w).Ends result v →
    v.scope = w.scope ∧ w.store.Spares (opened w.scope) v.store

/-- The scope of the statement being executed, if it may declare names there. -/
def OwnScope (declares : Prop) (scope other : FrameId) : Prop := declares ∧ other = scope

/-- One scope, wherever the statement being executed is. -/
def ScopeOf (id : FrameId) (_ other : FrameId) : Prop := other = id

namespace Script

variable {α β : Type} {opened : FrameId → FrameId → Prop}

/-- A computation that is over at once adds no names if it leaves the scopes alone. -/
theorem confined_of_done {m : Script α} (result : World → Except Interruption α) (f : World → World)
    (done : ∀ w, m w = .done (result w) (f w)) (scope : ∀ w, (f w).scope = w.scope)
    (frames : ∀ w, (f w).store.frames = w.store.frames) : Confined opened m := by
  intro w r v ends
  rw [done,Run.ends_done] at ends
  rw [ends.2]
  exact ⟨scope w,Store.spares_of_frames (frames w)⟩

theorem Confined.mono {more : FrameId → FrameId → Prop} {m : Script α} (confined : Confined opened m)
    (within : ∀ scope id, opened scope id → more scope id) : Confined more m := by
  intro w result v ends
  obtain ⟨scope,spares⟩ := confined w result v ends
  exact ⟨scope,spares.mono (within w.scope)⟩

theorem confined_pure (a : α) : Confined opened (pure a : Script α) :=
  confined_of_done (fun _ => .ok a) id (fun _ => rfl) (fun _ => rfl) fun _ => rfl

theorem confined_fail (fault : Fault) : Confined opened (fail fault : Script α) :=
  confined_of_done (fun _ => .error (.failed { fault := fault })) id (fun _ => rfl) (fun _ => rfl) fun _ => rfl

theorem confined_look (f : World → α) : Confined opened (look f) :=
  confined_of_done (fun w => .ok (f w)) id (fun _ => rfl) (fun _ => rfl) fun _ => rfl

theorem confined_told (f : World → Monitor) : Confined opened (change fun w => { w with monitor := f w }) :=
  confined_of_done (fun _ => .ok ()) _ (fun _ => rfl) (fun _ => rfl) fun _ => rfl

theorem confined_bind {m : Script α} {f : α → Script β} (first : Confined opened m)
    (second : ∀ a, Confined opened (f a)) : Confined opened (m >>= f) := by
  intro w result v ends
  rcases (Run.ends_andThen (m w) f result v).mp ends with ⟨a,x,firstEnds,secondEnds⟩ | ⟨e,_,firstEnds⟩
  · obtain ⟨scope,spares⟩ := first _ _ _ firstEnds
    obtain ⟨scope',spares'⟩ := second a _ _ _ secondEnds
    rw [scope] at scope' spares'
    exact ⟨scope',spares.trans spares'⟩
  · exact first _ _ _ firstEnds

theorem confined_locate (span : Span) {m : Script α} (inner : Confined opened m) : Confined opened (locate span m) := by
  intro w result v ends
  obtain ⟨_,innerEnds,_⟩ := (Run.ends_locate span (m w) result v).mp ends
  exact inner _ _ _ innerEnds

theorem confined_checkKilled : Confined opened checkKilled := by
  refine confined_of_done _ _ checkKilled_eq (fun w => ?_) fun w => ?_
  · split <;> rfl
  · split <;> rfl

theorem confined_awaitTurtle : Confined opened awaitTurtle := by
  have killed : Confined opened checkKilled := confined_checkKilled
  intro w result v ends
  unfold awaitTurtle at ends
  split at ends
  · obtain ⟨x,handed,rest⟩ := Run.ends_waiting.mp ends
    have after := killed _ _ _ rest
    rwa [handed.scope,handed.store] at after
  · rw [(Run.ends_done.mp ends).2]
    exact ⟨rfl,Store.spares_of_frames rfl⟩

theorem confined_checkpoint : Confined opened checkpoint :=
  confined_bind confined_checkKilled fun _ => confined_bind (confined_told _) fun _ => confined_awaitTurtle

theorem confined_inScope {f : FrameId → Action α} (contained : ∀ scope, (f scope).Contained)
    (spares : ∀ scope (s : Scene), s.store.Spares (opened scope) ((f scope).onScene s).2.store) :
    Confined opened (inScope f) := by
  intro w result v ends
  have stepped : (ofAction (f w.scope) w).Ends result v := ends
  rw [ofAction_eq (contained w.scope)] at stepped
  rw [(Run.ends_done.mp stepped).2]
  exact ⟨rfl,spares w.scope w.scene⟩

theorem confined_frameless {action : Action α} (frameless : action.Frameless) : Confined opened (ofAction action) :=
  confined_of_done _ _ (ofAction_eq frameless.contained) (fun _ => rfl) fun w => frameless.frames w.scene

theorem confined_inquire (f : FrameId → Store → Except Fault α) :
    Confined opened (inScope fun scope => Action.inquire (f scope)) := by
  refine confined_inScope (fun _ => Action.contained_inquire _) fun scope s => ?_
  rw [Action.onScene_inquire]
  exact Store.spares_of_frames rfl

theorem confined_assign (name : String) (a : Value) : Confined opened (inScope (Action.assign · name a)) := by
  refine confined_inScope (fun _ => Action.contained_assign _ _ _) fun scope s => ?_
  rw [Action.onScene_assign]
  exact Store.spares_assign _ _ _ _ _

theorem confined_define (id : FrameId) (name : String) (a : Value) :
    Confined (ScopeOf id) (ofAction (Action.define id name a)) := by
  refine confined_inScope (f := fun _ => Action.define id name a) (fun _ => Action.contained_define _ _ _) ?_
  intro scope s
  have own : ScopeOf id scope id := rfl
  rw [Action.onScene_define]
  exact Store.spares_define own _ _ _ _

theorem confined_inBlock {id : FrameId} (length : Nat) {m : Script α} (inner : Confined (OwnScope True) m) :
    Confined (ScopeOf id) (inBlock id length m) := by
  intro w result v ends
  obtain ⟨x,innerEnds,rfl⟩ := (Run.ends_atEnd _ _ _ _).mp ends
  exact ⟨rfl,(inner _ _ _ innerEnds).2.mono fun _ own => own.2⟩

theorem confined_inCall {m : Script α} (inner : Confined opened m) : Confined opened (inCall m) := by
  intro w result v ends
  obtain ⟨x,innerEnds,rfl⟩ := (Run.ends_atEnd _ _ _ _).mp ends
  obtain ⟨scope,spares⟩ := inner _ _ _ innerEnds
  exact ⟨scope,spares⟩

/-- Names that are added to a new scope are added to none that was there before. -/
theorem confined_newScope (parent : FrameId) {f : FrameId → Script α} (next : ∀ id, Confined (ScopeOf id) (f id)) :
    Confined opened (newScope parent >>= f) := by
  intro w result v ends
  let x : World := { w with store := (w.store.child parent).2 }
  have made : (newScope parent >>= f) w = f w.store.frames.size x := rfl
  rw [made] at ends
  obtain ⟨scope,spares⟩ := next w.store.frames.size _ _ _ ends
  have size : x.store.frames.size = w.store.frames.size + 1 := Store.size_child parent
  refine ⟨scope,Nat.le_trans (by omega) spares.size,fun id there _ => ?_⟩
  have keeps := spares.keeps id (by omega) (Nat.ne_of_lt there)
  have same : x.store.frame id = w.store.frame id := (Store.frame_child parent id).trans (if_neg (Nat.ne_of_lt there))
  rwa [same] at keeps

end Script

/-! ### Programs -/

/-- Calls of declared functions add names to none of the scopes that were there before. -/
def CallsConfined (invoke : Invoke) : Prop :=
  ∀ (opened : FrameId → FrameId → Prop) (c : Closure) (args : List Value), Script.Confined opened (invoke c args)

section
variable {invoke : Invoke} {config : Config} {opened : FrameId → FrameId → Prop}

open Script

theorem confined_evaluating (opened : FrameId → FrameId → Prop) : Evaluating (Confined opened) where
  pure := confined_pure
  fail := confined_fail
  bind := confined_bind
  locate span _ inner := confined_locate span inner
  frameless := confined_frameless
  get name := confined_inquire fun scope store => store.get scope name
  assign := confined_assign

/-- That names are added to the own scope at most carries over to whole programs. -/
theorem confined_executing : Executing (fun declares => Confined (OwnScope declares)) (fun id => Confined (ScopeOf id))
    fun _ m => Confined (OwnScope True) m where
  evaluating declares := confined_evaluating (OwnScope declares)
  sequential id := (confined_evaluating (ScopeOf id)).toSequential
  checkpoint _ := confined_checkpoint
  callDepth _ := confined_look _
  scope _ := confined_look _
  declare may name a := by
    refine confined_inScope (fun _ => Action.contained_define _ _ _) fun scope s => ?_
    rw [Action.onScene_define]
    exact Store.spares_define ⟨may,rfl⟩ _ _ _ _
  define := confined_define
  inCall := confined_inCall
  inBlock _ _ _ := confined_inBlock _
  newScope _ parent _ next := confined_newScope parent next
  newBlock _ _ next := confined_bind (confined_look _) fun scope => confined_newScope scope next
  nil a _ := confined_pure a
  cons _ _ _ _ first rest := confined_bind (confined_told _) fun _ => confined_bind first rest

/-- Evaluating an expression adds names to none of the scopes that were there before. -/
theorem eval_confined (calls : CallsConfined invoke) (e : Expr) : Confined opened (e.eval invoke) :=
  (confined_evaluating opened).eval (calls opened) e

theorem evalOption_confined (calls : CallsConfined invoke) (e : Option Expr) :
    Confined opened (Expr.evalOption invoke e) :=
  (confined_evaluating opened).evalOption (calls opened) e

theorem call_confined (calls : CallsConfined invoke) (function : Function) (args : List Value) :
    Confined opened (function.call invoke args) :=
  (confined_evaluating opened).call (calls opened) function args

/-- Executing a statement adds names to its own scope at most, and not there if it binds nothing in it. -/
theorem exec_confined (calls : CallsConfined invoke) (s : Stmt) {declares : Prop} (allowed : declares ∨ s.Bindless) :
    Confined (OwnScope declares) (s.exec config invoke) :=
  confined_executing.exec config (fun declares => calls (OwnScope declares)) s allowed

/-- A call adds names to none of the scopes that were there before, however many calls may be nested. -/
theorem invokeWithin_confined (config : Config) (budget : Nat) : CallsConfined (invokeWithin config budget) :=
  fun _ c args => (confined_executing.invokeWithin config budget False c args).mono fun _ _ own => own.1.elim

end

/-- All scopes that are there stay, and bind the names they bound. -/
def Store.KeepsNames (store later : Store) : Prop := store.Spares (fun _ => False) later

/-- One scope binds one name more, and all others that are there stay and bind the names they bound. -/
structure Store.GainsName (store later : Store) (id : FrameId) (name : String) : Prop where
  gains : (store.frame id).Gains (later.frame id) name
  others : store.Spares (· = id) later

/-- The computation adds names to none of the scopes that are there, whether it has a result or not. -/
def Script.KeepsNames {α : Type} (m : Script α) : Prop :=
  ∀ (w : World) (result : Except Interruption α) (v : World), (m w).Ends result v → w.store.KeepsNames v.store

/-- The computation adds the name to its own scope if it has a result, and no name if it has none. -/
def Script.Declares {α : Type} (name : String) (m : Script α) : Prop :=
  ∀ (w : World) (result : Except Interruption α) (v : World), w.scope < w.store.frames.size → (m w).Ends result v →
    match result with
    | .ok _ => w.store.GainsName v.store w.scope name
    | .error _ => w.store.KeepsNames v.store

namespace Script

variable {α β : Type} {name : String}

theorem Confined.keepsNames {m : Script α} (confined : Confined (OwnScope False) m) : KeepsNames m :=
  fun w result v ends => (confined w result v ends).2.mono fun _ own => own.1

theorem declares_bind {m : Script α} {f : α → Script β} (first : Confined (OwnScope False) m)
    (second : ∀ a, Declares name (f a)) : Declares name (m >>= f) := by
  intro w result v there ends
  rcases (Run.ends_andThen (m w) f result v).mp ends with ⟨a,x,firstEnds,secondEnds⟩ | ⟨e,rfl,firstEnds⟩
  · have scope := (first _ _ _ firstEnds).1
    have keeps := first.keepsNames _ _ _ firstEnds
    have inside : x.scope < x.store.frames.size := by
      rw [scope]
      exact Nat.lt_of_lt_of_le there keeps.size
    have later := second a x result v inside secondEnds
    cases result with
    | ok b =>
      obtain ⟨gains,others⟩ := later
      rw [scope] at gains others
      exact ⟨(keeps.keeps _ there id).gains gains,(keeps.mono nofun).trans others⟩
    | error e => exact keeps.trans later
  · exact first.keepsNames _ _ _ firstEnds

theorem declares_locate (span : Span) {m : Script α} (inner : Declares name m) : Declares name (locate span m) := by
  intro w result v there ends
  obtain ⟨first,innerEnds,rfl⟩ := (Run.ends_locate span (m w) result v).mp ends
  have later := inner w first v there innerEnds
  cases first with
  | ok a => exact later
  | error e => exact later

theorem declares_map {m : Script α} (inner : Declares name m) (b : β) : Declares name (do let _ ← m; return b) := by
  intro w result v there ends
  rcases (Run.ends_andThen (m w) _ result v).mp ends with ⟨a,x,innerEnds,rest⟩ | ⟨e,rfl,innerEnds⟩
  · obtain ⟨rfl,rfl⟩ := Run.ends_done.mp rest
    exact inner w _ _ there innerEnds
  · exact inner w _ v there innerEnds

theorem declares_define (name : String) (a : Value) : Declares name (inScope (Action.define · name a)) := by
  intro w result v there ends
  have stepped : (ofAction (Action.define w.scope name a) w).Ends result v := ends
  rw [ofAction_eq (Action.contained_define w.scope name a),Action.onScene_define,Run.ends_done] at stepped
  obtain ⟨rfl,rfl⟩ := stepped
  simp only [Store.perform]
  cases done : w.scene.store.define w.scope { name := name, value := a } with
  | error fault => exact Store.spares_of_frames rfl
  | ok later =>
    obtain ⟨free,rfl⟩ := Store.define_eq_ok done
    refine ⟨?_,Store.spares_changeFrame fun closed => absurd rfl closed⟩
    show (w.store.frame w.scope).Gains ((w.store.changeFrame w.scope _).frame w.scope) name
    rw [Store.frame_changeFrame there,if_pos rfl]
    exact Frame.gains_insert free rfl

end Script

section
variable {invoke : Invoke} {config : Config}

open Script

theorem declares_var (calls : CallsConfined invoke) (name : Name) (initial : Option Expr) (span : Span) :
    Declares name.text ((Stmt.var name initial span).exec config invoke) := by
  rw [Stmt.exec]
  refine declares_bind confined_checkpoint fun _ => declares_locate span ?_
  refine declares_bind (evalOption_confined calls initial) fun a => ?_
  exact declares_map (declares_locate name.span (declares_define name.text a)) Flow.next

theorem declares_function (name : Name) (params : List Name) (body : List Stmt) (span : Span) :
    Declares name.text ((Stmt.function name params body span).exec config invoke) := by
  rw [Stmt.exec]
  refine declares_bind confined_checkpoint fun _ => declares_locate span ?_
  refine declares_bind (confined_look _) fun scope => ?_
  refine declares_bind (confined_frameless (Action.frameless_renew fun _ _ => rfl)) fun a => ?_
  exact declares_map (declares_locate name.span (declares_define name.text a)) Flow.next

end

/-- The name that a statement declares. -/
def Stmt.declared? : Stmt → Option String
  | .var name _ _ | .function name _ _ _ => some name.text
  | _ => none

mutual

/-- Nowhere in the statement is a branch or what a loop repeats a declaration. -/
def Stmt.Sheltered : Stmt → Prop
  | .function _ _ body _ | .block body _ => Stmt.ShelteredAll body
  | .branch _ yes no _ => (yes.Bindless ∧ yes.Sheltered) ∧ Stmt.BindlessOption no ∧ Stmt.ShelteredOption no
  | .loop _ body _ => body.Bindless ∧ body.Sheltered
  | _ => True

def Stmt.ShelteredOption : Option Stmt → Prop
  | some s => s.Sheltered
  | none => True

def Stmt.ShelteredAll : List Stmt → Prop
  | [] => True
  | s :: ss => s.Sheltered ∧ Stmt.ShelteredAll ss

end

theorem Stmt.shelteredAll_iff {ss : List Stmt} : Stmt.ShelteredAll ss ↔ ∀ s ∈ ss, s.Sheltered := by
  induction ss with
  | nil => exact ⟨fun _ => nofun,fun _ => trivial⟩
  | cons s ss ih => rw [Stmt.ShelteredAll,ih,List.forall_mem_cons]

theorem Stmt.Sheltered.bindless {s : Stmt} (sheltered : s.Sheltered) (undeclared : s.declared? = none) :
    s.Bindless := by
  cases s with
  | var name initial span => cases undeclared
  | function name params body span => cases undeclared
  | branch test yes no span => exact ⟨sheltered.1.1,sheltered.2.1⟩
  | loop test body span => exact sheltered.1
  | _ => exact trivial

theorem Nests.sheltered {roots : Nat → Stmt → Prop} {d : Nat} {s : Stmt} (nests : Nests roots d s)
    (root : ∀ d s, roots d s → s.Sheltered) : s.Sheltered := by
  induction nests with
  | root here => exact root _ _ here
  | block _ mem ih => exact Stmt.shelteredAll_iff.mp ih _ mem
  | body _ mem ih => exact Stmt.shelteredAll_iff.mp ih _ mem
  | yes _ ih => exact ih.1.2
  | no _ ih => exact ih.2.2
  | loop _ ih => exact ih.2

namespace Program

/-- What is a statement by the grammar is no declaration, and what is in branches and loops is one by the grammar. -/
theorem Sentence.sheltered {form : Form} {ts : List Token} {s : Stmt} (sentence : Sentence form ts s) :
    s.Sheltered ∧ ∀ dangling, form = .statement dangling → s.Bindless := by
  have all : ∀ {body : List (List Token × Stmt)}, (∀ item ∈ body, item.2.Sheltered ∧
      ∀ dangling, Form.declaration = .statement dangling → item.2.Bindless) →
        Stmt.ShelteredAll (body.map Prod.snd) := by
    intro body each
    refine Stmt.shelteredAll_iff.mpr fun s mem => ?_
    obtain ⟨item,inside,rfl⟩ := List.mem_map.mp mem
    exact (each item inside).1
  induction sentence with
  | function _ _ _ _ _ _ _ _ _ _ each => exact ⟨all each,nofun⟩
  | var declared => cases declared <;> exact ⟨trivial,nofun⟩
  | statement _ inner => exact ⟨inner.1,nofun⟩
  | effect effect =>
    cases effect
    exact ⟨trivial,fun _ _ => trivial⟩
  | giveBack => exact ⟨trivial,fun _ _ => trivial⟩
  | block _ _ _ each => exact ⟨all each,fun _ _ => trivial⟩
  | loop _ _ _ _ _ repeated => exact ⟨⟨repeated.2 _ rfl,repeated.1⟩,fun _ _ => repeated.2 _ rfl⟩
  | @forLoop _ _ _ _ _ _ _ _ start _ _ _ _ round _ _ _ _ _ started _ _ _ _ _ _ isRound isTree repeated =>
    have bindless := repeated.2 _ rfl
    have rounds : round.Bindless ∧ round.Sheltered := by
      cases isRound with
      | missing => exact ⟨bindless,repeated.1⟩
      | given => exact ⟨trivial,repeated.1,trivial,trivial⟩
    have starts : ∀ s ∈ start, s.Sheltered := by
      intro s mem
      cases mem
      cases started with
      | declared declared => cases declared <;> exact trivial
      | effect effect =>
        cases effect
        exact trivial
    cases isTree with
    | missing => exact ⟨rounds,fun _ _ => rounds.1⟩
    | given s => exact ⟨⟨starts s rfl,rounds,trivial⟩,fun _ _ => trivial⟩
  | ifOnly _ _ _ _ _ done => exact ⟨⟨⟨done.2 _ rfl,done.1⟩,trivial,trivial⟩,fun _ _ => ⟨done.2 _ rfl,trivial⟩⟩
  | ifElse _ _ _ _ _ _ _ done otherwise =>
    exact ⟨⟨⟨done.2 _ rfl,done.1⟩,otherwise.2 _ rfl,otherwise.1⟩,fun _ _ => ⟨done.2 _ rfl,otherwise.2 _ rfl⟩⟩

/-- In what has been parsed, all statements but declarations bind nothing in their own scope. -/
theorem bindless_of_nests {tokens : List Token} {program : Program} (parsed : ofTokens tokens = .ok program) {d : Nat}
    {s : Stmt} (nests : program.Nests d s) (undeclared : s.declared? = none) : s.Bindless := by
  obtain ⟨items,each,_,statements⟩ := derives_of_ofTokens parsed
  refine (TurtleScript.Nests.sheltered nests fun _ root top => ?_).bindless undeclared
  rw [statements] at top
  obtain ⟨item,mem,rfl⟩ := List.mem_map.mp top.2
  exact (each item mem).sheltered.1

end Program

/-- From any state, whatever expression is evaluated, function called or statement executed, and however that ends: if
the statement declares a name and has a result, its own scope binds this one name more, and otherwise the scopes that
were there bind the names they bound, each for the library or for the program, and for the library to the same value. -/
theorem names_declared (config : Config) (budget : Nat) :
    let invoke := invokeWithin config budget
    (∀ e : Expr, (e.eval invoke).KeepsNames) ∧ (∀ (f : Function) (args : List Value), (f.call invoke args).KeepsNames) ∧
    ∀ (tokens : List Token) (program : Program), Program.ofTokens tokens = .ok program →
      ∀ (d : Nat) (s : Stmt), program.Nests d s →
        match s.declared? with
        | some name => (s.exec config invoke).Declares name
        | none => (s.exec config invoke).KeepsNames := by
  have calls := invokeWithin_confined config budget
  refine ⟨fun e => (eval_confined calls e).keepsNames,fun f args => (call_confined calls f args).keepsNames,?_⟩
  intro tokens program parsed d s nests
  cases declares : s.declared? with
  | none => exact (exec_confined calls s (.inr (Program.bindless_of_nests parsed nests declares))).keepsNames
  | some name =>
    cases s with
    | var name initial span =>
      cases declares
      exact declares_var calls name initial span
    | function name params body span =>
      cases declares
      exact declares_function name params body span
    | _ => cases declares

/-- The tokens of `var x;`. -/
def declaringTokens : List Token :=
  [{ kind := .kwVar, lexeme := "var", span := ⟨0,3,1⟩ },{ kind := .identifier, lexeme := "x", span := ⟨4,5,1⟩ },
    { kind := .semicolon, lexeme := ";", span := ⟨5,6,1⟩ },Token.endAt ⟨6,6,1⟩]

/-- The declaration has a result in a fresh store, and adds its name to the global scope. -/
theorem names_declared_var : ∃ (program : Program) (s : Stmt) (v : World),
    let w := (Session.ofConfig {}).refresh.world
    Program.ofTokens declaringTokens = .ok program ∧ program.Nests 0 s ∧ s.declared? = some "x" ∧
      w.scope < w.store.frames.size ∧ (s.exec {} (invokeWithin {} 1) w).Ends (.ok .next) v ∧
      w.store.GainsName v.store Store.global "x" := by
  let s : Stmt := .var ⟨"x",⟨4,5,1⟩⟩ none ⟨0,6,1⟩
  let w := (Session.ofConfig {}).refresh.world
  have parsed : Program.ofTokens declaringTokens = .ok ⟨[s]⟩ := rfl
  have nests : Program.Nests ⟨[s]⟩ 0 s := .root ⟨rfl,.head _⟩
  have there : w.scope < w.store.frames.size := by decide +kernel
  obtain ⟨v,ends⟩ : ∃ v, (s.exec {} (invokeWithin {} 1) w).Ends (.ok .next) v := ⟨_,.done _ _⟩
  have declares := (names_declared {} 1).2.2 _ _ parsed 0 s nests
  exact ⟨⟨[s]⟩,s,v,parsed,nests,rfl,there,ends,declares w _ v there ends⟩

end TurtleScript
