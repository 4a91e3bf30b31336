import TurtleScript.Session
import TurtleScript.Proofs.SideBySide
import TurtleScript.Proofs.TreeSpans

/-!
`for` loops. There is no tree for them: the parser makes a `while` loop of them, with the step behind the body in a block
of its own. What a `for` loop does by itself is defined here (`ForLoop.exec`), with the body and the step in the scope of
the loop. The tree that the parser makes has the same effect (`for_direct`), since the body of a loop declares nothing
(`Nested.statement_bindless`), so nothing is ever bound in the scope of that block.
-/

namespace TurtleScript

/-- The clauses, the body and the place of a `for` loop. -/
structure ForLoop where
  start : Option Stmt
  test : Option Expr
  semicolon : Span
  step : Option Expr
  body : Stmt
  span : Span

namespace ForLoop

variable (loop : ForLoop) (config : Config) (invoke : Invoke)

/-- The tree that stands for the loop. -/
def tree : Stmt := Program.Nested.forTree loop.start loop.test loop.semicolon loop.step loop.body loop.span

/-- Whether there is another round; without a condition there always is. -/
def again : Script Bool :=
  match loop.test with
  | some test => do return (← test.eval invoke).truthy
  | none => return true

/-- Passes over the next identity of a scope. Nothing is executed in that scope. -/
def passOver : Script Unit := do
  let _ ← Script.newScope (← Script.look World.scope)

/-- One round: the body and then the step, both in the scope of the loop. With a step, the round has a checkpoint and a
place in the numbering of scopes of its own. -/
def round : Script Flow :=
  match loop.step with
  | none => loop.body.exec config invoke
  | some step => do
    Script.checkpoint
    Script.locate loop.span do
      passOver
      match ← loop.body.exec config invoke with
      | .returned value => return .returned value
      | .next => do
        Script.checkpoint
        Script.locate step.span do
          let _ ← step.eval invoke
          return .next

def rounds : Script Flow := do
  Script.checkpoint
  Script.locate loop.span
    (Script.repeatWhile config.maxLoopIterations (loop.again invoke) (loop.round config invoke) config.maxLoopIterations)

/-- What the loop does: the rounds, behind its start in a new scope if it has one. -/
def exec : Script Flow :=
  match loop.start with
  | none => loop.rounds config invoke
  | some start => do
    Script.checkpoint
    Script.locate loop.span do
      let scope ← Script.newScope (← Script.look World.scope)
      Script.inBlock scope 2 do
        match ← start.exec config invoke with
        | .returned value => return .returned value
        | .next => loop.rounds config invoke

end ForLoop

namespace Program

open TurtleScript.Program.Parser

theorem Parser.map_bind {α β γ : Type} (p : Parser α) (f : α → Parser β) (g : β → γ) :
    g <$> (p >>= f) = p >>= fun a => g <$> f a := by
  funext s
  show andThen (andThen p f) (succeed ∘ g) s = andThen p (fun a => andThen (f a) (succeed ∘ g)) s
  unfold andThen
  rcases p s with ⟨_ | a,t⟩ <;> rfl

theorem Parser.of_map {α β : Type} {p : Parser α} {g : α → β} {s : State} {b : β} (made : ((g <$> p) s).1 = some b) :
    ∃ a, (p s).1 = some a ∧ b = g a := by
  rcases out : p s with ⟨_ | a,t⟩
  · rw [show (g <$> p) s = (none,t) from bind_none out] at made
    cases made
  · rw [show (g <$> p) s = (some (g a),t) from bind_some out] at made
    cases made
    exact ⟨a,rfl,rfl⟩

namespace Nested

variable {inner : Nested}

/-- A `for` loop by its clauses, behind its first word. -/
def forLoop (inner : Nested) : Parser ForLoop := do
  let first ← last
  let _ ← expect .leftParen .forOpen
  let start ← inner.forStart
  let test ← inner.expressionUnless .semicolon
  let semicolon ← expect .semicolon .conditionEnd
  let step ← inner.expressionUnless .rightParen
  let _ ← expect .rightParen .forClose
  let body ← nested inner.statement
  return ⟨start,test,semicolon.span,step,body,← spanFrom first.span⟩

theorem forRule_eq (inner : Nested) : inner.forRule = ForLoop.tree <$> inner.forLoop := by
  unfold forRule forLoop
  simp only [map_bind]
  rfl

theorem yields_whatever {α : Type} (p : Parser α) : Yields (fun _ => True) p Whatever :=
  fun _ _ => ⟨⟨fun _ _ => trivial,trivial,trivial⟩,fun _ _ => trivial⟩

theorem forLoop_yields {Q : Stmt → Prop} (bodies : Yields (fun _ => True) inner.statement Q) :
    Yields (fun _ => True) inner.forLoop fun loop => Q loop.body := by
  refine (yields_whatever _).bind fun _ _ => (yields_whatever _).bind fun _ _ => ?_
  refine (yields_whatever _).bind fun _ _ => (yields_whatever _).bind fun _ _ => ?_
  refine (yields_whatever _).bind fun _ _ => (yields_whatever _).bind fun _ _ => ?_
  refine (yields_whatever _).bind fun _ _ => bodies.nested.bind fun body holds => ?_
  exact (yields_whatever _).bind fun _ _ => yields_pure holds

theorem tree_bindless {loop : ForLoop} (bindless : loop.body.Bindless) : loop.tree.Bindless := by
  obtain ⟨start,test,semicolon,step,body,span⟩ := loop
  cases start with
  | some start => trivial
  | none =>
    cases step with
    | some step => trivial
    | none => exact bindless

theorem statementRule_bindless (inside : Yields (fun _ => True) inner.statement Stmt.Bindless) :
    Yields (fun _ => True) inner.statementRule Stmt.Bindless := by
  have step : ∀ {kind : Token.Kind} {p q : Parser Stmt}, Yields (fun _ => True) p Stmt.Bindless →
      Yields (fun _ => True) q Stmt.Bindless →
      Yields (fun _ => True) (do if ← accept kind then p else q) Stmt.Bindless :=
    fun yes no => (yields_whatever _).bind fun _ _ => yields_ite yes no
  refine step ?_ (step ?_ (step ?_ (step ?_ (step ?_ ?_))))
  · rw [forRule_eq]
    exact (forLoop_yields inside).map fun _ => tree_bindless
  · refine (yields_whatever _).bind fun _ _ => (yields_whatever _).bind fun _ _ => ?_
    refine (yields_whatever _).bind fun _ _ => (yields_whatever _).bind fun _ _ => ?_
    refine inside.nested.bind fun yes first => ?_
    have other : Yields (fun _ => True) (some <$> nested inner.statement) Stmt.BindlessOption :=
      inside.nested.map fun _ holds => holds
    refine yields_choose (yields_whatever _) other (yields_pure trivial) fun no second => ?_
    exact (yields_whatever _).bind fun _ _ => yields_pure ⟨first,second⟩
  · refine (yields_whatever _).bind fun _ _ => (yields_whatever _).bind fun _ _ => ?_
    exact (yields_whatever _).bind fun _ _ => (yields_whatever _).bind fun _ _ => yields_pure trivial
  · refine (yields_whatever _).bind fun _ _ => (yields_whatever _).bind fun _ _ => ?_
    refine (yields_whatever _).bind fun _ _ => (yields_whatever _).bind fun _ _ => ?_
    exact inside.nested.bind fun body holds => (yields_whatever _).bind fun _ _ => yields_pure holds
  · refine (yields_whatever _).bind fun _ _ => (yields_whatever _).bind fun _ _ => ?_
    exact (yields_whatever _).bind fun _ _ => yields_pure trivial
  · exact (yields_whatever _).bind fun _ _ => (yields_whatever _).bind fun _ _ => yields_pure trivial

theorem statement_bindless : ∀ n, Yields (fun _ => True) (level n).statement Stmt.Bindless
  | 0 => yields_fail _
  | n + 1 => statementRule_bindless (statement_bindless n)

end Nested

end Program

/-- Two worlds that look the same to programs and hosts: output, turtle, arrays, and what is bound in every scope. -/
structure World.SameEffect (w v : World) : Prop where
  printed : v.printed = w.printed
  sprite : v.sprite = w.sprite
  arrays : v.store.arrays = w.store.arrays
  closures : v.store.closures = w.store.closures
  scopes : v.store.frames.size = w.store.frames.size
  bindings : ∀ id, (v.store.frame id).bindings = (w.store.frame id).bindings
  callDepth : v.callDepth = w.callDepth
  asked : v.monitor.killRequested = w.monitor.killRequested

theorem World.Beside.sameEffect {hollow : List FrameId} {w v : World} (beside : w.Beside hollow v) : w.SameEffect v :=
  ⟨beside.printed,beside.sprite,beside.store.arrays,beside.store.closures,beside.store.size,beside.store.bindings,
    beside.callDepth,beside.asked⟩

theorem Script.bind_pure {α : Type} (m : Script α) : m >>= pure = m := by
  funext w
  show (m w).andThen (fun a w => .done (.ok a) w) = m w
  induction m w with
  | done result w => cases result <;> rfl
  | waiting w resume ih => exact congrArg (Run.waiting w) (funext ih)

theorem Script.bind_assoc {α β γ : Type} (m : Script α) (f : α → Script β) (g : β → Script γ) :
    m >>= f >>= g = m >>= fun a => f a >>= g :=
  funext fun w => Run.andThen_andThen (m w) f g

section
variable {invoke : Invoke} {config : Config} {place : List FrameId → World → World → Prop}

open Script

theorem along_atStatement_left {α : Type} (stable : Stable place) (index : Nat) (span : Span) {m n : Script α}
    (along : Along place m n) :
    Along place (do change fun w => { w with monitor := w.monitor.atStatement index span }; m) n := by
  have told : Along place (change fun w => { w with monitor := w.monitor.atStatement index span }) (pure ()) :=
    along_told (fun m => m.atStatement_asked index span) fun _ => rfl
  exact along_bind stable told fun _ => along

/-- A list of two statements goes along with the first one and what the second one goes along with. -/
theorem pair_along (stable : Stable place) {s t : Stmt} {n : Script Flow}
    (first : Along place (s.exec config invoke) (s.exec config invoke)) (second : Along place (t.exec config invoke) n) :
    Along place (Stmt.execAll config invoke 0 [s,t])
      (do
        match ← s.exec config invoke with
        | .returned value => return .returned value
        | .next => n) := by
  have last : Stmt.execAll config invoke 1 [t] =
      (do change fun w => { w with monitor := w.monitor.atStatement 1 t.span }; t.exec config invoke) := by
    rw [Stmt.execAll]
    refine congrArg (Bind.bind _) (funext fun _ => ?_)
    nth_rewrite 2 [← Script.bind_pure (t.exec config invoke)]
    refine congrArg (Bind.bind _) (funext fun flow => ?_)
    cases flow with
    | returned value => rfl
    | next =>
      show Stmt.execAll config invoke 2 [] = _
      rw [Stmt.execAll]
  rw [Stmt.execAll]
  refine along_atStatement_left stable 0 s.span (along_bind stable first fun flow => ?_)
  cases flow with
  | returned value => exact along_pure _
  | next =>
    show Along place (Stmt.execAll config invoke 1 [t]) n
    rw [last]
    exact along_atStatement_left stable 1 t.span second

end

section
variable {invoke : Invoke} {config : Config} {hollow : List FrameId} {w v : World}

open Script

/-- Statements in a new scope go along with the same statements in the scope around it, if nothing is bound there. That
scope is hollow from then on. -/
theorem alongside_hollow (beside : w.Beside hollow v) (facing : Facing True hollow w v) {α : Type} (length : Nat)
    {m n : Script α} (inner : Along (Facing False) m n) :
    ((do inBlock (← newScope (← look World.scope)) length m) w).Alongside
      (Aside (w.store.frames.size :: hollow))
      (fun w' v' => ∃ more, w.store.frames.size ∈ more ∧ w'.Beside more v' ∧ Ahead hollow w v more w' v')
      ((do ForLoop.passOver; n) v) := by
  let z := w.store.frames.size
  let x : World := { w with store := (w.store.child w.scope).2, scope := z, monitor := w.monitor.enterBlock length }
  let y : World := { v with store := (v.store.child v.scope).2 }
  have grows : w.store.Grows x.store := Store.grows_child w.scope
  have grows' : v.store.Grows y.store := Store.grows_child v.scope
  have there : z < x.store.frames.size := by
    show z < (w.store.child w.scope).2.frames.size
    rw [Store.size_child]
    exact Nat.lt_succ_self z
  have empty : (x.store.frame z).bindings = [] := by
    show ((w.store.child w.scope).2.frame z).bindings = []
    rw [Store.frame_child,if_pos rfl]
  have inside : x.Beside (z :: hollow) y :=
    ⟨(beside.store.child facing.chains).hollowed there empty,beside.sprite,beside.printed,beside.callDepth,beside.asked⟩
  have chain : x.store.chain z = z :: w.store.chain w.scope := by
    show ((w.store.child w.scope).2).chain z = _
    unfold Store.chain
    rw [Store.frame_child,if_pos rfl]
    rfl
  have uneven : Facing False (z :: hollow) x y := by
    refine ⟨there,Nat.lt_of_lt_of_le facing.right grows'.size,?_,False.elim⟩
    show Chains (z :: hollow) (x.store.chain z) (y.store.chain v.scope)
    rw [chain,grows'.chain facing.right]
    exact Chains.skip (facing.chains.mono (List.subset_cons_self _ _)) (.head _)
  have run : ((do inBlock (← newScope (← look World.scope)) length m) w : Run α) =
      (m x).atEnd fun after => { after with scope := w.scope, monitor := after.monitor.exitBlock } := rfl
  have run' : ((do ForLoop.passOver; n) v : Run α) = n y := rfl
  rw [run,run']
  refine (inner (z :: hollow) x y inside uneven).through (·.atEnd _) id (fun _ _ => rfl) (fun _ _ => rfl)
    (fun _ _ aside => aside) fun r w' v' ended => ⟨rfl,?_⟩
  obtain ⟨more,after,ahead⟩ := ended
  refine ⟨more,ahead.kept (.head _),⟨after.store,after.sprite,after.printed,after.callDepth,after.asked⟩,?_⟩
  refine ⟨fun _ mem => ahead.kept (.tail _ mem),fun id mem old => ?_,grows.trans ahead.left,grows'.trans ahead.right,rfl,
    ahead.scope'⟩
  -- A scope that was there before is not the new one.
  rcases List.mem_cons.mp (ahead.new id mem (Nat.lt_of_lt_of_le old grows.size)) with rfl | was
  · exact absurd old (Nat.lt_irrefl _)
  · exact was

end

namespace ForLoop

/-- The tree of one round: with a step, a block of the body and the step. -/
def roundTree (loop : ForLoop) : Stmt :=
  match loop.step with
  | some step => .block [loop.body,.expression step step.span] loop.span
  | none => loop.body

def roundsTree (loop : ForLoop) : Stmt :=
  .loop (loop.test.getD (.literal (.bool true) loop.semicolon)) loop.roundTree loop.span

theorem tree_eq (loop : ForLoop) : loop.tree =
    match loop.start with
    | some start => .block [start,loop.roundsTree] loop.span
    | none => loop.roundsTree := by
  obtain ⟨start,test,semicolon,step,body,span⟩ := loop
  cases start <;> cases step <;> rfl

end ForLoop

section
variable {invoke : Invoke} {config : Config} {loop : ForLoop}

open Script

/-- The body and the step go along with themselves, one scope further in on the one side. -/
theorem body_step_along (calls : CallsAlong invoke) {body : Stmt} (bindless : body.Bindless) (step : Expr) :
    Along (Facing False) (Stmt.execAll config invoke 0 [body,.expression step step.span])
      (do
        match ← body.exec config invoke with
        | .returned value => return .returned value
        | .next => do
          checkpoint
          locate step.span do
            let _ ← step.eval invoke
            return Flow.next) := by
  refine pair_along facing_stable (exec_along calls body (.inr bindless)) ?_
  rw [Stmt.exec]
  refine along_bind facing_stable (along_checkpoint facing_stable) fun _ => along_locate _ ?_
  exact along_bind facing_stable (eval_along calls step) fun _ => along_pure _

theorem round_along (calls : CallsAlong invoke) (bindless : loop.body.Bindless) :
    Along (Facing True) (loop.roundTree.exec config invoke) (loop.round config invoke) := by
  obtain ⟨start,test,semicolon,step,body,span⟩ := loop
  cases step with
  | none => exact exec_along calls body (.inl trivial)
  | some step =>
    unfold ForLoop.roundTree ForLoop.round
    dsimp only
    rw [Stmt.exec]
    refine along_bind facing_stable (along_checkpoint facing_stable) fun _ => along_locate span ?_
    intro hollow w v beside facing
    have inner : Along (Facing False) (Stmt.execAll config invoke 0 [body,.expression step step.span]) _ :=
      body_step_along calls bindless step
    refine (alongside_hollow beside facing 2 inner).mono
      (fun _ _ aside => aside.mono (List.subset_cons_self _ _)) fun _ _ ended => ?_
    obtain ⟨more,_,ended⟩ := ended
    exact ⟨more,ended⟩

theorem again_along (calls : CallsAlong invoke) {even : Prop} :
    Along (Facing even) (do return (← (loop.test.getD (.literal (.bool true) loop.semicolon)).eval invoke).truthy)
      (loop.again invoke) := by
  obtain ⟨start,test,semicolon,step,body,span⟩ := loop
  cases test with
  | some test => exact along_bind facing_stable (eval_along calls test) fun _ => along_pure _
  | none =>
    show Along _ (do return (← (Expr.literal (.bool true) semicolon).eval invoke).truthy) (pure true)
    rw [Expr.eval]
    exact along_pure true

theorem rounds_along (calls : CallsAlong invoke) (bindless : loop.body.Bindless) :
    Along (Facing True) (loop.roundsTree.exec config invoke) (loop.rounds config invoke) := by
  unfold ForLoop.roundsTree ForLoop.rounds
  rw [Stmt.exec]
  refine along_bind facing_stable (along_checkpoint facing_stable) fun _ => along_locate _ ?_
  exact along_repeatWhile facing_stable _ (again_along calls) (round_along calls bindless) _

theorem forTree_along (calls : CallsAlong invoke) (bindless : loop.body.Bindless) :
    Along (Facing True) (loop.tree.exec config invoke) (loop.exec config invoke) := by
  rw [loop.tree_eq]
  unfold ForLoop.exec
  cases loop.start with
  | none => exact rounds_along calls bindless
  | some start =>
    dsimp only
    rw [Stmt.exec]
    refine along_bind facing_stable (along_checkpoint facing_stable) fun _ => along_locate _ ?_
    intro hollow w v beside facing
    refine alongside_newScope beside facing.chains fun scope => along_inBlock 2 2 ?_
    exact pair_along facing_stable (exec_along calls start (.inl trivial)) (rounds_along calls bindless)

end

/-! ### The scope of a round -/

/-- Something holds wherever the run waits and wherever it ends. -/
structure Run.Throughout {α : Type} (P : World → Prop) (run : Run α) : Prop where
  waits : ∀ u, run.Waits u → P u
  ends : ∀ result u, run.Ends result u → P u

namespace Run.Throughout

variable {α β : Type} {P : World → Prop} {run : Run α}

theorem done {result : Except Interruption α} {w : World} (holds : P w) : (Run.done result w).Throughout P := by
  refine ⟨fun _ => nofun,fun other u ended => ?_⟩
  rw [(Run.ends_done.mp ended).2]
  exact holds

theorem waiting {w : World} {resume : World → Run α} (holds : P w)
    (later : ∀ v, Handed w v → (resume v).Throughout P) : (Run.waiting w resume).Throughout P := by
  constructor
  · intro u there
    rcases Run.waits_waiting.mp there with rfl | ⟨v,handed,waits⟩
    · exact holds
    · exact (later v handed).waits u waits
  · intro result u there
    obtain ⟨v,handed,ends⟩ := Run.ends_waiting.mp there
    exact (later v handed).ends result u ends

theorem mono (throughout : run.Throughout P) {Q : World → Prop} (implies : ∀ u, P u → Q u) : run.Throughout Q :=
  ⟨fun u there => implies u (throughout.waits u there),fun r u there => implies u (throughout.ends r u there)⟩

theorem andThen {f : α → World → Run β} (first : run.Throughout P)
    (second : ∀ a w, run.Ends (.ok a) w → (f a w).Throughout P) : (run.andThen f).Throughout P := by
  constructor
  · intro u there
    rcases (Run.waits_andThen run f u).mp there with waits | ⟨a,w,ended,waits⟩
    · exact first.waits u waits
    · exact (second a w ended).waits u waits
  · intro result u there
    rcases (Run.ends_andThen run f result u).mp there with ⟨a,w,ended,ends⟩ | ⟨e,_,ends⟩
    · exact (second a w ended).ends result u ends
    · exact first.ends _ u ends

theorem of_alongside {waits ends : World → World → Prop} {run' : Run α} (along : run.Alongside waits ends run')
    (waiting : ∀ u v, waits u v → P u) (ending : ∀ u v, ends u v → P u) : run.Throughout P := by
  constructor
  · intro u there
    obtain ⟨v,known⟩ := along.waits_beside there
    exact waiting u v known
  · intro result u there
    obtain ⟨v,known⟩ := along.ends_beside there
    exact ending u v known

end Run.Throughout

theorem checkpoint_throughout (w : World) :
    (Script.checkpoint w).Throughout fun u => u.store = w.store ∧ u.scope = w.scope := by
  have asking : ∀ v : World, v.store = w.store ∧ v.scope = w.scope →
      (Script.checkKilled v).Throughout fun u => u.store = w.store ∧ u.scope = w.scope := by
    intro v same
    unfold Script.checkKilled
    split <;> exact .done same
  refine (asking w ⟨rfl,rfl⟩).andThen fun _ v ended => ?_
  have same := (asking w ⟨rfl,rfl⟩).ends _ v ended
  refine Run.Throughout.andThen (.done same) fun _ x told => ?_
  obtain ⟨_,rfl⟩ := Run.ends_done.mp told
  unfold Script.awaitTurtle
  split
  · exact .waiting same fun y handed => asking y ⟨handed.store.trans same.1,handed.scope.trans same.2⟩
  · exact .done same

section
variable {invoke : Invoke} {config : Config} {loop : ForLoop}

open Script

/-- Nothing is ever bound in the scope that is made for the body and the step, whatever comes behind them. -/
theorem block_hollow (calls : CallsAlong invoke) {body : Stmt} (bindless : body.Bindless) (step : Expr) (span : Span)
    {next : Flow → Script Flow} (behind : ∀ flow, Along (Facing True) (next flow) (next flow)) {w : World}
    (there : w.scope < w.store.frames.size) :
    ((locate span (do
        inBlock (← newScope (← look World.scope)) 2 (Stmt.execAll config invoke 0 [body,.expression step step.span])) >>=
      next) w).Throughout fun u => (u.store.frame w.store.frames.size).bindings = [] := by
  have beside : w.Beside [] w := ⟨.refl nofun nofun,rfl,rfl,rfl,rfl⟩
  have facing : Facing True [] w w := ⟨there,there,.refl _,fun _ => ⟨rfl,nofun⟩⟩
  have inner : Along (Facing False) (Stmt.execAll config invoke 0 [body,.expression step step.span]) _ :=
    body_step_along calls bindless step
  have first := (alongside_hollow beside facing 2 inner).locate span
  have empty : ∀ u v, Aside [w.store.frames.size] u v → (u.store.frame w.store.frames.size).bindings = [] := by
    rintro u v ⟨more,kept,beside⟩
    exact beside.store.empty _ (kept (.head _))
  refine .of_alongside (first.andThen (f := next) (g := next) (fun flow x y ended => ?_) ?_) empty empty
  · obtain ⟨more,mem,after,ahead⟩ := ended
    have kept : [w.store.frames.size] ⊆ more := by simpa using mem
    refine (behind flow more x y after (facing_stable facing ahead)).mono (fun _ _ aside => aside.mono kept) ?_
    rintro _ _ ⟨most,beside,further⟩
    exact ⟨most,fun _ mem => further.kept (kept mem),beside⟩
  · rintro x y ⟨more,mem,after,_⟩
    exact ⟨more,by simpa using mem,after⟩

/-- Nothing is ever bound in the scope that a round makes for itself, whatever is executed behind it. -/
theorem round_hollow (calls : CallsAlong invoke) (bindless : loop.body.Bindless) {step : Expr}
    (stepped : loop.step = some step) (index : Nat) (rest : List Stmt) {w : World}
    (there : w.scope < w.store.frames.size) :
    (Stmt.execAll config invoke index (loop.roundTree :: rest) w).Throughout fun u =>
      (u.store.frame w.store.frames.size).bindings = [] := by
  have unmade : ∀ u : World, u.store = w.store → (u.store.frame w.store.frames.size).bindings = [] := by
    intro u same
    unfold Store.frame
    rw [same,Array.getD_eq_getD_getElem?,Array.getElem?_eq_none (Nat.le_refl _)]
    rfl
  have tree : loop.roundTree = .block [loop.body,.expression step step.span] loop.span := by
    unfold ForLoop.roundTree
    rw [stepped]
  rw [tree,Stmt.execAll,Stmt.exec,Script.bind_assoc]
  -- The scope is made behind the checkpoint, in the store as it was.
  refine Run.Throughout.andThen (.done (unmade _ rfl)) fun _ x told => ?_
  obtain ⟨_,rfl⟩ := Run.ends_done.mp told
  refine Run.Throughout.andThen ((checkpoint_throughout _).mono fun u same => unmade u same.1) fun _ v ended => ?_
  obtain ⟨store,scope⟩ := (checkpoint_throughout _).ends _ v ended
  have store : v.store = w.store := store
  have scope : v.scope = w.scope := scope
  rw [← store]
  rw [← store,← scope] at there
  refine block_hollow calls bindless step loop.span (fun flow => ?_) there
  cases flow with
  | returned value => exact along_pure _
  | next => exact execAll_along calls (index + 1) rest

end

/-- Whatever `for` loop is parsed, its tree has the effect of the loop itself in every world, whatever the host does: the
two wait at the same time, print the same lines, leave the same turtle, arrays and bindings, and end with the same result,
each in the scope in which it began. Nothing is ever bound in the scope that the tree makes for a round, not even by what
is executed behind it. -/
theorem forTree_faithful {n : Nat} {s : Program.State} {tree : Stmt}
    (parsed : ((Program.Nested.level n).forRule s).1 = some tree) :
    ∃ loop : ForLoop, ((Program.Nested.level n).forLoop s).1 = some loop ∧ tree = loop.tree ∧
      ∀ (config : Config) (budget : Nat) (w : World), w.scope < w.store.frames.size →
        (tree.exec config (invokeWithin config budget) w).Alongside World.SameEffect
            (fun u v => u.SameEffect v ∧ u.scope = w.scope ∧ v.scope = w.scope)
            (loop.exec config (invokeWithin config budget) w) ∧
          ∀ step ∈ loop.step, ∀ (index : Nat) (rest : List Stmt),
            (Stmt.execAll config (invokeWithin config budget) index (loop.roundTree :: rest) w).Throughout fun u =>
              (u.store.frame w.store.frames.size).bindings = [] := by
  rw [Program.Nested.forRule_eq] at parsed
  obtain ⟨loop,found,rfl⟩ := Program.Parser.of_map parsed
  have bindless : loop.body.Bindless :=
    (Program.Nested.forLoop_yields (Program.Nested.statement_bindless n) s
      ⟨fun _ _ => trivial,trivial,trivial⟩).2 loop found
  refine ⟨loop,found,rfl,fun config budget w there => ⟨?_,fun step stepped index rest => ?_⟩⟩
  · have beside : w.Beside [] w := ⟨.refl nofun nofun,rfl,rfl,rfl,rfl⟩
    have facing : Facing True [] w w := ⟨there,there,.refl _,fun _ => ⟨rfl,nofun⟩⟩
    refine (forTree_along (invokeWithin_along config budget) bindless [] w w beside facing).mono ?_ ?_
    · rintro u v ⟨_,_,after⟩
      exact after.sameEffect
    · rintro u v ⟨_,after,ahead⟩
      exact ⟨after.sameEffect,ahead.scope,ahead.scope'⟩
  · exact round_hollow (invokeWithin_along config budget) bindless stepped index rest there

/-- A loop that counts down, from the state in which a program begins. -/
theorem forTree_faithful_countingDown :
    let s := Program.State.ofTokens (Token.scan "(var i = 2; i; i = i - 1) print(i);").tokens
    let w := (Session.ofConfig {}).refresh.world
    ∃ tree loop, ((Program.Nested.level 8).forRule s).1 = some tree ∧
      ((Program.Nested.level 8).forLoop s).1 = some loop ∧ tree = loop.tree ∧
      (loop.exec {} (invoke {}) w).world.printed = #["2","1"] ∧
      (tree.exec {} (invoke {}) w).Alongside World.SameEffect
        (fun u v => u.SameEffect v ∧ u.scope = w.scope ∧ v.scope = w.scope) (loop.exec {} (invoke {}) w) := by
  intro s w
  obtain ⟨tree,parsed⟩ : ∃ tree, ((Program.Nested.level 8).forRule s).1 = some tree :=
    Option.isSome_iff_exists.mp (by decide +kernel)
  obtain ⟨loop,found,same,faithful⟩ := forTree_faithful parsed
  have prints : ∀ loop ∈ ((Program.Nested.level 8).forLoop s).1,
    (loop.exec {} (invoke {}) w).world.printed = #["2","1"] := by decide +kernel
  exact ⟨tree,loop,parsed,found,same,prints loop found,(faithful {} _ w (by decide +kernel)).1⟩

end TurtleScript
