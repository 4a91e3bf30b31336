import TurtleScript.Proofs.HollowScopes
import TurtleScript.Proofs.Lockstep

/-!
Programs side by side. Two computations go along with each other if they do so from any two worlds that differ in hollow
scopes only and are placed in some way (`Script.Along`). Placements that further computations keep (`Stable`) carry over
to what is put together of them (`along_executing`). So an expression, a call and a statement go along with themselves
(`eval_along`, `invokeWithin_along`, `exec_along`), even where the one is evaluated in a hollow scope and the other in the
scope around that, as long as a statement there binds nothing in its own scope (`Stmt.Bindless`).
-/

namespace TurtleScript

/-- The worlds are in scopes that lead out alike, and if they are even, in one that is the same and not hollow. -/
structure Facing (even : Prop) (hollow : List FrameId) (w v : World) : Prop where
  left : w.scope < w.store.frames.size
  right : v.scope < v.store.frames.size
  chains : Chains hollow (w.store.chain w.scope) (v.store.chain v.scope)
  even : even → v.scope = w.scope ∧ w.scope ∉ hollow

/-- The scope is there and not hollow. -/
structure Usable (id : FrameId) (hollow : List FrameId) (w _v : World) : Prop where
  there : id < w.store.frames.size
  used : id ∉ hollow

def Stable (place : List FrameId → World → World → Prop) : Prop :=
  ∀ {hollow more : List FrameId} {w v w' v' : World}, place hollow w v → Ahead hollow w v more w' v' → place more w' v'

section
variable {hollow more : List FrameId} {w v w' v' : World} {even : Prop} {id : FrameId}

theorem Ahead.trans {most : List FrameId} {x y : World} (first : Ahead hollow w v more w' v')
    (second : Ahead more w' v' most x y) : Ahead hollow w v most x y where
  kept _ mem := second.kept (first.kept mem)
  new id mem there := first.new id (second.new id mem (Nat.lt_of_lt_of_le there first.left.size)) there
  left := first.left.trans second.left
  right := first.right.trans second.right
  scope := second.scope.trans first.scope
  scope' := second.scope'.trans first.scope'

theorem usable_stable : Stable (Usable id) := by
  intro hollow more w v w' v' usable ahead
  refine ⟨Nat.lt_of_lt_of_le usable.there ahead.left.size,fun mem => usable.used ?_⟩
  exact ahead.new id mem usable.there

theorem facing_stable : Stable (Facing even) := by
  intro hollow more w v w' v' facing ahead
  refine ⟨?_,?_,?_,fun isEven => ?_⟩
  · rw [ahead.scope]
    exact Nat.lt_of_lt_of_le facing.left ahead.left.size
  · rw [ahead.scope']
    exact Nat.lt_of_lt_of_le facing.right ahead.right.size
  · rw [ahead.scope,ahead.scope',ahead.left.chain facing.left,ahead.right.chain facing.right]
    exact facing.chains.mono ahead.kept
  · obtain ⟨same,used⟩ := facing.even isEven
    rw [ahead.scope,ahead.scope']
    exact ⟨same,fun mem => used (ahead.new _ mem facing.left)⟩

theorem Ended.further (ahead : Ahead hollow w v more w' v') {x y : World} (ended : Ended more w' v' x y) :
    Ended hollow w v x y := by
  obtain ⟨most,beside,onward⟩ := ended
  exact ⟨most,beside,ahead.trans onward⟩

theorem Aside.mono (subset : hollow ⊆ more) (aside : Aside more w v) : Aside hollow w v := by
  obtain ⟨most,kept,beside⟩ := aside
  exact ⟨most,fun id mem => kept (subset mem),beside⟩

theorem World.Beside.handed (beside : w.Beside hollow v) (left : Handed w w') (right : Handed v v')
    (sprite : v'.sprite = w'.sprite) (asked : v'.monitor.killRequested = w'.monitor.killRequested) :
    w'.Beside hollow v' where
  store := by
    rw [left.store,right.store]
    exact beside.store
  sprite := sprite
  printed := right.printed.trans (beside.printed.trans left.printed.symm)
  callDepth := right.callDepth.trans (beside.callDepth.trans left.callDepth.symm)
  asked := asked

end

/-- The computations go side by side from any two worlds that are so placed. -/
def Script.Along {α : Type} (place : List FrameId → World → World → Prop) (m n : Script α) : Prop :=
  ∀ hollow w v, w.Beside hollow v → place hollow w v → (m w).Alongside (Aside hollow) (Ended hollow w v) (n v)

/-- Two steps from scenes side by side that give the same and end side by side. -/
structure LeadsAlong {α : Type} (hollow : List FrameId) (s t : Scene) (out out' : Except Fault α × Scene) : Prop where
  result : out'.1 = out.1
  store : out.2.store.Beside hollow out'.2.store
  sprite : out'.2.sprite = out.2.sprite
  printed : out'.2.printed = out.2.printed
  grows : s.store.Grows out.2.store
  grows' : t.store.Grows out'.2.store

structure StepsAlong {α : Type} (hollow : List FrameId) (s t : Scene) (m n : Action α) : Prop where
  left : m.Contained
  right : n.Contained
  leads : LeadsAlong hollow s t (m.onScene s) (n.onScene t)

section
variable {α β : Type} {hollow : List FrameId} {w v : World} {place : List FrameId → World → World → Prop}

open Script

theorem ended_here {w' v' : World} (beside : w'.Beside hollow v') (left : w.store.Grows w'.store)
    (right : v.store.Grows v'.store) (scope : w'.scope = w.scope) (scope' : v'.scope = v.scope) :
    Ended hollow w v w' v' :=
  ⟨hollow,beside,⟨fun _ mem => mem,fun _ mem _ => mem,left,right,scope,scope'⟩⟩

theorem World.Beside.ended (beside : w.Beside hollow v) : Ended hollow w v w v :=
  ended_here beside (.refl _) (.refl _) rfl rfl

theorem along_pure (a : α) : Along place (pure a) (pure a) := fun _ _ _ beside _ => ⟨rfl,beside.ended⟩

theorem along_fail (fault : Fault) : Along place (Script.fail fault : Script α) (Script.fail fault) :=
  fun _ _ _ beside _ => ⟨rfl,beside.ended⟩

theorem along_bind (stable : Stable place) {m n : Script α} {f g : α → Script β} (first : Along place m n)
    (second : ∀ a, Along place (f a) (g a)) : Along place (m >>= f) (n >>= g) := by
  intro hollow w v beside here
  refine (first hollow w v beside here).andThen (fun a w' v' ended => ?_) fun _ _ ended => ended
  obtain ⟨more,after,ahead⟩ := ended
  have next := second a more w' v' after (stable here ahead)
  exact next.mono (fun _ _ aside => aside.mono ahead.kept) fun _ _ ended => ended.further ahead

theorem along_locate (span : Span) {m n : Script α} (along : Along place m n) :
    Along place (locate span m) (locate span n) :=
  fun hollow w v beside here => (along hollow w v beside here).locate span

theorem along_ite {c : Prop} [Decidable c] {m m' n n' : Script α} (yes : Along place m n) (no : Along place m' n') :
    Along place (if c then m else m') (if c then n else n') := by
  split
  · exact yes
  · exact no

theorem along_told {f g : Monitor → Monitor} (left : ∀ m, (f m).killRequested = m.killRequested)
    (right : ∀ m, (g m).killRequested = m.killRequested) :
    Along place (change fun w => { w with monitor := f w.monitor })
      (change fun w => { w with monitor := g w.monitor }) := by
  intro hollow w v beside _
  refine ⟨rfl,ended_here ⟨beside.store,beside.sprite,beside.printed,beside.callDepth,?_⟩ (.refl _) (.refl _) rfl rfl⟩
  show (g v.monitor).killRequested = (f w.monitor).killRequested
  rw [left,right,beside.asked]

theorem along_atStatement (index index' : Nat) (span span' : Span) :
    Along place (change fun w => { w with monitor := w.monitor.atStatement index span })
      (change fun w => { w with monitor := w.monitor.atStatement index' span' }) :=
  along_told (fun m => m.atStatement_asked index span) fun m => m.atStatement_asked index' span'

theorem along_checkKilled : Along place checkKilled checkKilled := by
  intro hollow w v beside _
  unfold checkKilled
  rw [beside.asked]
  split
  · refine ⟨rfl,ended_here ⟨beside.store,?_,beside.printed,beside.callDepth,beside.asked⟩ (.refl _) (.refl _) rfl rfl⟩
    exact congrArg Turtle.Sprite.stopGlide beside.sprite
  · exact ⟨rfl,beside.ended⟩

theorem along_awaitTurtle : Along place awaitTurtle awaitTurtle := by
  intro hollow w v beside here
  unfold awaitTurtle
  rw [beside.sprite]
  split
  · refine ⟨⟨hollow,fun _ mem => mem,beside⟩,fun w' v' left right sprite asked => ?_⟩
    have after := beside.handed left right sprite asked
    have killed : Along (fun _ _ _ => True) checkKilled checkKilled := along_checkKilled
    have grows : w.store.Grows w'.store := Store.grows_of_frames (congrArg Store.frames left.store)
    have grows' : v.store.Grows v'.store := Store.grows_of_frames (congrArg Store.frames right.store)
    refine (killed hollow w' v' after trivial).mono (fun _ _ aside => aside) fun _ _ ended => ended.further ?_
    exact ⟨fun _ mem => mem,fun _ mem _ => mem,grows,grows',left.scope,right.scope⟩
  · exact ⟨rfl,beside.ended⟩

theorem along_checkpoint (stable : Stable place) : Along place checkpoint checkpoint := by
  refine along_bind stable along_checkKilled fun _ => along_bind stable ?_ fun _ => along_awaitTurtle
  intro hollow w v beside _
  exact ⟨rfl,ended_here ⟨beside.store,beside.sprite,beside.printed,beside.callDepth,beside.asked⟩ (.refl _) (.refl _)
    rfl rfl⟩

theorem along_callDepth : Along place (look World.callDepth) (look World.callDepth) :=
  fun _ _ _ beside _ => ⟨congrArg Except.ok beside.callDepth,beside.ended⟩

/-! ### Steps -/

theorem StepsAlong.alongside {m n : Action α} (steps : StepsAlong hollow w.scene v.scene m n)
    (beside : w.Beside hollow v) :
    (ofAction m w).Alongside (Aside hollow) (Ended hollow w v) (ofAction n v) := by
  obtain ⟨left,right,result,store,sprite,printed,grows,grows'⟩ := steps
  rw [ofAction_eq left,ofAction_eq right,result]
  exact ⟨rfl,ended_here ⟨store,sprite,printed,beside.callDepth,beside.asked⟩ grows grows' rfl rfl⟩

theorem along_act {m n : Action α} (steps : ∀ {hollow w v}, w.Beside hollow v → place hollow w v →
    StepsAlong hollow w.scene v.scene m n) : Along place (ofAction m) (ofAction n) :=
  fun _ _ _ beside here => (steps beside here).alongside beside

theorem along_inScope {f g : FrameId → Action α} (steps : ∀ {hollow w v}, w.Beside hollow v → place hollow w v →
    StepsAlong hollow w.scene v.scene (f w.scope) (g v.scope)) : Along place (inScope f) (inScope g) :=
  fun _ _ _ beside here => (steps beside here).alongside beside

theorem World.Beside.frameless (beside : w.Beside hollow v) {m : Action α} (frameless : m.Frameless) :
    StepsAlong hollow w.scene v.scene m m := by
  have scene : v.scene = w.scene.withFrames v.store.frames := by
    unfold World.scene Scene.withFrames Store.withFrames
    rw [beside.sprite,beside.printed,← beside.store.arrays,← beside.store.closures]
  have out : m.onScene v.scene = ((m.onScene w.scene).1,(m.onScene w.scene).2.withFrames v.store.frames) := by
    rw [scene]
    exact frameless.same _ _
  have frames := frameless.frames w.scene
  refine ⟨frameless.contained,frameless.contained,?_⟩
  rw [out]
  exact ⟨rfl,beside.store.withFrames frames,rfl,rfl,Store.grows_of_frames frames,Store.grows_of_frames rfl⟩

theorem along_frameless {m : Action α} (frameless : m.Frameless) : Along place (ofAction m) (ofAction m) :=
  along_act fun beside _ => beside.frameless frameless

theorem World.Beside.inquire (beside : w.Beside hollow v) {f g : Store → Except Fault α}
    (same : g v.store = f w.store) : StepsAlong hollow w.scene v.scene (.inquire f) (.inquire g) := by
  refine ⟨Action.contained_inquire f,Action.contained_inquire g,?_⟩
  rw [Action.onScene_inquire,Action.onScene_inquire]
  exact ⟨same,beside.store,beside.sprite,beside.printed,.refl _,.refl _⟩

/-- A question with the same answer in both stores, and the same change behind it. -/
theorem World.Beside.alter (beside : w.Beside hollow v) {f g : Store → Except Fault α} (same : g v.store = f w.store)
    {c : α → Store → Store} (kept : ∀ a, (c a w.store).Beside hollow (c a v.store))
    (left : ∀ a, w.store.Grows (c a w.store)) (right : ∀ a, v.store.Grows (c a v.store)) :
    StepsAlong hollow w.scene v.scene (do Action.alter (c (← Action.inquire f)))
      (do Action.alter (c (← Action.inquire g))) := by
  have contained : ∀ a, (Action.alter (c a)).Contained := fun a => Action.contained_alter _
  have same : g v.scene.store = f w.scene.store := same
  refine ⟨Action.contained_bind (Action.contained_inquire f) contained,
    Action.contained_bind (Action.contained_inquire g) contained,?_⟩
  rw [Action.onScene_bind _ contained,Action.onScene_inquire,Action.onScene_bind _ contained,Action.onScene_inquire,same]
  cases f w.scene.store with
  | ok a => exact ⟨rfl,kept a,beside.sprite,beside.printed,left a,right a⟩
  | error fault => exact ⟨rfl,beside.store,beside.sprite,beside.printed,.refl _,.refl _⟩

theorem steps_assign (beside : w.Beside hollow v) (chains : Chains hollow (w.store.chain w.scope) (v.store.chain v.scope))
    (name : String) (a : Value) :
    StepsAlong hollow w.scene v.scene (Action.assign w.scope name a) (Action.assign v.scope name a) :=
  beside.alter (beside.store.assignable chains name) (fun holder => beside.store.put holder name a)
    (fun _ => Store.grows_changeFrame fun _ => rfl) fun _ => Store.grows_changeFrame fun _ => rfl

theorem steps_define (beside : w.Beside hollow v) {scope : FrameId} (used : scope ∉ hollow) (name : String) (a : Value) :
    StepsAlong hollow w.scene v.scene (Action.define scope name a) (Action.define scope name a) :=
  beside.alter (c := fun _ store => store.bind scope { name := name, value := a })
    (beside.store.definable scope name) (fun _ => beside.store.bind used _)
    (fun _ => Store.grows_changeFrame fun _ => rfl) fun _ => Store.grows_changeFrame fun _ => rfl

theorem alongside_newScope {a b : FrameId} (beside : w.Beside hollow v)
    (chains : Chains hollow (w.store.chain a) (v.store.chain b)) {f g : FrameId → Script β}
    (next : ∀ scope, Along (Usable scope) (f scope) (g scope)) :
    ((newScope a >>= f) w).Alongside (Aside hollow) (Ended hollow w v) ((newScope b >>= g) v) := by
  let x : World := { w with store := (w.store.child a).2 }
  let y : World := { v with store := (v.store.child b).2 }
  have left : (newScope a >>= f) w = f w.store.frames.size x := rfl
  have right : (newScope b >>= g) v = g w.store.frames.size y := congrArg (g · y) beside.store.size
  have after : x.Beside hollow y :=
    ⟨beside.store.child chains,beside.sprite,beside.printed,beside.callDepth,beside.asked⟩
  have usable : Usable w.store.frames.size hollow x y := by
    refine ⟨?_,fun mem => absurd (beside.store.there _ mem) (Nat.lt_irrefl _)⟩
    show w.store.frames.size < (w.store.child a).2.frames.size
    rw [Store.size_child]
    exact Nat.lt_succ_self _
  have ahead : Ahead hollow w v hollow x y :=
    ⟨fun _ mem => mem,fun _ mem _ => mem,Store.grows_child a,Store.grows_child b,rfl,rfl⟩
  rw [left,right]
  exact (next _ hollow x y after usable).mono (fun _ _ aside => aside) fun _ _ ended => ended.further ahead

theorem along_inBlock {scope : FrameId} (length length' : Nat) {m n : Script α} (inner : Along (Facing True) m n) :
    Along (Usable scope) (inBlock scope length m) (inBlock scope length' n) := by
  intro hollow w v beside usable
  let x : World := { w with scope := scope, monitor := w.monitor.enterBlock length }
  let y : World := { v with scope := scope, monitor := v.monitor.enterBlock length' }
  have inside : x.Beside hollow y := ⟨beside.store,beside.sprite,beside.printed,beside.callDepth,beside.asked⟩
  have facing : Facing True hollow x y := by
    refine ⟨usable.there,?_,beside.store.chains scope,fun _ => ⟨rfl,usable.used⟩⟩
    show scope < v.store.frames.size
    rw [beside.store.size]
    exact usable.there
  refine (inner hollow x y inside facing).atEnd fun w' v' ended => ?_
  obtain ⟨more,after,ahead⟩ := ended
  refine ⟨more,⟨after.store,after.sprite,after.printed,after.callDepth,after.asked⟩,?_⟩
  exact ⟨ahead.kept,ahead.new,ahead.left,ahead.right,rfl,rfl⟩

theorem along_inCall {scope : FrameId} {m n : Script α} (inner : Along (Usable scope) m n) :
    Along (Usable scope) (inCall m) (inCall n) := by
  intro hollow w v beside usable
  have inside : World.Beside hollow { w with callDepth := w.callDepth + 1 } { v with callDepth := v.callDepth + 1 } :=
    ⟨beside.store,beside.sprite,beside.printed,congrArg (· + 1) beside.callDepth,beside.asked⟩
  refine (inner hollow _ _ inside ⟨usable.there,usable.used⟩).atEnd fun w' v' ended => ?_
  obtain ⟨more,after,ahead⟩ := ended
  refine ⟨more,⟨after.store,after.sprite,after.printed,beside.callDepth,after.asked⟩,?_⟩
  exact ⟨ahead.kept,ahead.new,ahead.left,ahead.right,ahead.scope,ahead.scope'⟩

theorem along_repeatWhile (stable : Stable place) (limit : Nat) {test test' : Script Bool} {body body' : Script Flow}
    (tests : Along place test test') (bodies : Along place body body') :
    ∀ rounds, Along place (repeatWhile limit test body rounds) (repeatWhile limit test' body' rounds)
  | 0 => along_bind stable tests fun _ => along_ite (along_fail _) (along_pure _)
  | rounds + 1 => by
    refine along_bind stable tests fun _ => along_ite ?_ (along_pure _)
    refine along_bind stable bodies fun flow => ?_
    cases flow with
    | returned value => exact along_pure _
    | next =>
      exact along_bind stable (along_checkpoint stable) fun _ =>
        along_repeatWhile stable limit tests bodies rounds

end

/-- Calls of declared functions go along with themselves, wherever they are made. -/
def CallsAlong (invoke : Invoke) : Prop :=
  ∀ (even : Prop) (c : Closure) (args : List Value), Script.Along (Facing even) (invoke c args) (invoke c args)

section
variable {even : Prop} {invoke : Invoke} {config : Config}

open Script

theorem along_evaluating (even : Prop) : Evaluating fun m => Along (Facing even) m m where
  pure := along_pure
  fail := along_fail
  bind := along_bind facing_stable
  locate span _ inner := along_locate span inner
  frameless := along_frameless
  get name := along_inScope fun beside facing => beside.inquire (beside.store.get facing.chains name)
  assign name a := along_inScope fun beside facing => steps_assign beside facing.chains name a

/-- Going along with itself carries over to whole programs: in the same scope on both sides where names are declared, and
in scopes that lead out alike where none are. -/
theorem along_executing : Executing (fun even => fun m => Along (Facing even) m m)
    (fun id => fun m => Along (Usable id) m m) fun _ m => Along (Facing True) m m where
  evaluating := along_evaluating
  sequential _ := ⟨along_pure,along_fail,along_bind usable_stable,fun span _ inner => along_locate span inner⟩
  checkpoint _ := along_checkpoint facing_stable
  callDepth _ := along_callDepth
  scope isEven _ _ _ beside facing := ⟨congrArg Except.ok (facing.even isEven).1,beside.ended⟩
  declare isEven name a := by
    refine along_inScope fun beside facing => ?_
    obtain ⟨same,used⟩ := facing.even isEven
    rw [same]
    exact steps_define beside used name a
  define _ name a := along_act fun beside usable => steps_define beside usable.used name a
  inCall := along_inCall
  inBlock _ _ _ := along_inBlock _ _
  newScope _ parent _ next _ _ _ beside _ := alongside_newScope beside (beside.store.chains parent) next
  newBlock _ _ next _ _ _ beside facing := alongside_newScope beside facing.chains next
  nil a _ := along_pure a
  cons _ _ _ _ first rest :=
    along_bind facing_stable (along_atStatement _ _ _ _) fun _ => along_bind facing_stable first rest

theorem eval_along (calls : CallsAlong invoke) (e : Expr) : Along (Facing even) (e.eval invoke) (e.eval invoke) :=
  (along_evaluating even).eval (calls even) e

/-- A statement goes along with itself, in the same scope on both sides or if it binds nothing. -/
theorem exec_along (calls : CallsAlong invoke) (s : Stmt) (allowed : even ∨ s.Bindless) :
    Along (Facing even) (s.exec config invoke) (s.exec config invoke) :=
  along_executing.exec config calls s allowed

theorem execAll_along (calls : CallsAlong invoke) (index : Nat) (ss : List Stmt) :
    Along (Facing True) (Stmt.execAll config invoke index ss) (Stmt.execAll config invoke index ss) :=
  along_executing.execAll config calls index ss

theorem invokeWithin_along (config : Config) (budget : Nat) : CallsAlong (invokeWithin config budget) :=
  along_executing.invokeWithin config budget

end

end TurtleScript
