import TurtleScript.Session
import TurtleScript.Proofs.Pairing
import TurtleScript.Proofs.Runs

/-!
Runs in lockstep. Two runs are alike if they wait at the same time, go on alike from worlds that are alike, and end
alike (`Run.Alike`). Programs that differ in their spans only run alike in worlds that differ in spans only, whatever
the host does with the turtle and whenever it asks them to stop (`Program.script_alike`).
-/

namespace TurtleScript

theorem Monitor.atStatement_asked (m : Monitor) (index : Nat) (span : Span) :
    (m.atStatement index span).killRequested = m.killRequested := by
  unfold Monitor.atStatement
  split <;> rfl

namespace Pairing

variable (p : Pairing) {α β : Type}

/-- The first world may stand beside the second. -/
structure Worlds (w v : World) : Prop where
  scenes : p.Scenes w.scene v.scene
  only : w.store.Only p.name
  scope : v.scope = w.scope
  callDepth : v.callDepth = w.callDepth
  asked : v.monitor.killRequested = w.monitor.killRequested

/-- Results of a kind, or interruptions that differ in their span only. -/
inductive Results (kind : α → α → Prop) : Except Interruption α → Except Interruption α → Prop where
  | ok {a b : α} (paired : kind a b) : Results kind (.ok a) (.ok b)
  | error (e : Interruption) : Results kind (.error e) (.error (e.respan p.span))

variable {p} {kind : α → α → Prop}

theorem Results.locate {r r' : Except Interruption α} (results : p.Results kind r r') (span : Span) :
    p.Results kind (r.mapError (·.locate span)) (r'.mapError (·.locate (p.span span))) := by
  cases results with
  | ok paired => exact .ok paired
  | error e =>
    have same := e.locate_respan p.span span
    show p.Results kind (.error (e.locate span)) (.error ((e.respan p.span).locate (p.span span)))
    rw [← same]
    exact .error _

theorem Steps.done {m n : Action α} (steps : p.Steps kind m n) {w v : World} (worlds : p.Worlds w v) :
    ∃ r r' x y, Script.ofAction m w = .done r x ∧ Script.ofAction n v = .done r' y ∧ p.Results kind r r' ∧
      p.Worlds x y := by
  refine ⟨_,_,_,_,Script.ofAction_eq steps.left w,Script.ofAction_eq steps.right v,?_,?_⟩
  · have ends := steps.ends worlds.scenes worlds.only
    generalize m.onScene w.scene = out at ends
    generalize n.onScene v.scene = out' at ends
    cases ends with
    | ok results _ => exact .ok results
    | error fault _ => exact .error _
  · have after : p.Scenes (m.onScene w.scene).2 (n.onScene v.scene).2 := by
      have ends := steps.ends worlds.scenes worlds.only
      generalize m.onScene w.scene = out at ends
      generalize n.onScene v.scene = out' at ends
      cases ends with
      | ok _ scenes => exact scenes
      | error _ scenes => exact scenes
    exact ⟨after,steps.only worlds.only,worlds.scope,worlds.callDepth,worlds.asked⟩

/-! Worlds stay paired on the way through statements, and into blocks and calls and out of them. -/

namespace Worlds

variable {w v : World}

theorem atStatement (worlds : p.Worlds w v) (index index' : Nat) (span span' : Span) :
    p.Worlds { w with monitor := w.monitor.atStatement index span }
      { v with monitor := v.monitor.atStatement index' span' } := by
  refine ⟨worlds.scenes,worlds.only,worlds.scope,worlds.callDepth,?_⟩
  rw [Monitor.atStatement_asked,Monitor.atStatement_asked]
  exact worlds.asked

theorem atDepth (worlds : p.Worlds w v) {depth depth' : Nat} (same : depth' = depth) :
    p.Worlds { w with callDepth := depth } { v with callDepth := depth' } :=
  ⟨worlds.scenes,worlds.only,worlds.scope,same,worlds.asked⟩

theorem enter (worlds : p.Worlds w v) (scope : FrameId) (length length' : Nat) :
    p.Worlds { w with scope := scope, monitor := w.monitor.enterBlock length }
      { v with scope := scope, monitor := v.monitor.enterBlock length' } :=
  ⟨worlds.scenes,worlds.only,rfl,worlds.callDepth,worlds.asked⟩

theorem exit (worlds : p.Worlds w v) {scope scope' : FrameId} (same : scope' = scope) :
    p.Worlds { w with scope := scope, monitor := w.monitor.exitBlock }
      { v with scope := scope', monitor := v.monitor.exitBlock } :=
  ⟨worlds.scenes,worlds.only,same,worlds.callDepth,worlds.asked⟩

theorem look (worlds : p.Worlds w v) (shown shown' : Option FrameId) :
    p.Worlds { w with monitor := { w.monitor with scope := shown } }
      { v with monitor := { v.monitor with scope := shown' } } :=
  ⟨worlds.scenes,worlds.only,worlds.scope,worlds.callDepth,worlds.asked⟩

end Worlds

end Pairing

namespace Run

variable {α β : Type} {E : World → World → Prop} {same : Except Interruption α → Except Interruption α → Prop}
  {same' : Except Interruption β → Except Interruption β → Prop}

/-- Two runs that wait at the same time and end alike, as long as the worlds they are given are alike. -/
def Alike (E : World → World → Prop) (same : Except Interruption α → Except Interruption α → Prop) :
    Run α → Run α → Prop
  | .done r w,.done r' v => same r r' ∧ E w v
  | .waiting w f,.waiting v g =>
    E w v ∧ ∀ w' v', Handed w w' → Handed v v' → E w' v' → (f w').Alike E same (g v')
  | _,_ => False

theorem Alike.through {run run' : Run α} (alike : run.Alike E same run') (f g : Run α → Run β)
    (left : ∀ w m, f (.waiting w m) = .waiting w fun v => f (m v))
    (right : ∀ w m, g (.waiting w m) = .waiting w fun v => g (m v))
    (ends : ∀ r w r' v, same r r' → E w v → run.Ends r w → run'.Ends r' v →
      (f (.done r w)).Alike E same' (g (.done r' v))) : (f run).Alike E same' (g run') := by
  induction run generalizing run' with
  | done r w =>
    cases run' with
    | done r' v => exact ends r w r' v alike.1 alike.2 (.done _ _) (.done _ _)
    | waiting => exact alike.elim
  | waiting w resume ih =>
    cases run' with
    | done => exact alike.elim
    | waiting v resume' =>
      rw [left,right]
      refine ⟨alike.1,fun w' v' handed handed' worlds => ih w' (alike.2 w' v' handed handed' worlds) ?_⟩
      exact fun r x r' y results after ended ended' =>
        ends r x r' y results after (.waiting handed ended) (.waiting handed' ended')

theorem Alike.handed {w v w' v' : World} {m n : World → Run α} (alike : (Run.waiting w m).Alike E same (.waiting v n))
    (left : Handed w w') (right : Handed v v') (worlds : E w' v') :
    (Run.waiting w' m).Alike E same (.waiting v' n) :=
  ⟨worlds,fun x y first second => alike.2 x y (left.trans first) (right.trans second)⟩

theorem Alike.andThen {run run' : Run α} {f g : α → World → Run β} (alike : run.Alike E same run')
    (ends : ∀ r w r' v, same r r' → E w v →
      ((Run.done r w).andThen f).Alike E same' ((Run.done r' v).andThen g)) :
    (run.andThen f).Alike E same' (run'.andThen g) :=
  alike.through (·.andThen f) (·.andThen g) (fun _ _ => rfl) (fun _ _ => rfl)
    fun r w r' v results worlds _ _ => ends r w r' v results worlds

theorem Alike.weaken {weaker : Except Interruption α → Except Interruption α → Prop} {run run' : Run α}
    (alike : run.Alike E same run') (implies : ∀ r r', same r r' → weaker r r') : run.Alike E weaker run' :=
  alike.through id id (fun _ _ => rfl) (fun _ _ => rfl)
    fun r _ r' _ results worlds _ _ => ⟨implies r r' results,worlds⟩

theorem Alike.atEnd {run run' : Run α} {f g : World → World} (alike : run.Alike E same run')
    (kept : ∀ w v, E w v → E (f w) (g v)) : (run.atEnd f).Alike E same (run'.atEnd g) :=
  alike.through (·.atEnd f) (·.atEnd g) (fun _ _ => rfl) (fun _ _ => rfl)
    fun _ w _ v results worlds _ _ => ⟨results,kept w v worlds⟩

theorem Alike.locate {p : Pairing} {kind : α → α → Prop} {run run' : Run α}
    (alike : run.Alike E (p.Results kind) run') (span : Span) :
    (run.locate span).Alike E (p.Results kind) (run'.locate (p.span span)) :=
  alike.through (·.locate span) (·.locate (p.span span)) (fun _ _ => rfl) (fun _ _ => rfl)
    fun _ _ _ _ results worlds _ _ => ⟨results.locate span,worlds⟩

end Run

/-! ### Spans aside -/

/-- The pairing of runs that differ in spans only, of which the second has changed ones. -/
def spansChanged (f : Span → Span) : Pairing where
  span := f
  name _ := True
  turtle x y := y = x

theorem spansChanged_fair (f : Span → Span) : (spansChanged f).Fair where
  heading same := by rw [same]
  polygon same := by rw [same]
  position _ same := by rw [same]
  stroke _ same := congrArg _ same

namespace Pairing.Worlds

variable {f : Span → Span} {w v : World}

theorem store (worlds : (spansChanged f).Worlds w v) : v.store = w.store.respan f := worlds.scenes.store

theorem sprite (worlds : (spansChanged f).Worlds w v) : v.sprite = w.sprite := worlds.scenes.turtle

theorem gliding (worlds : (spansChanged f).Worlds w v) : v.sprite.gliding = w.sprite.gliding :=
  congrArg Turtle.Sprite.gliding worlds.sprite

theorem draw (worlds : (spansChanged f).Worlds w v) (g : Turtle.Sprite → Turtle.Sprite) :
    (spansChanged f).Worlds { w with sprite := g w.sprite } { v with sprite := g v.sprite } :=
  ⟨⟨worlds.store,congrArg g worlds.sprite,worlds.scenes.printed⟩,worlds.only,worlds.scope,worlds.callDepth,worlds.asked⟩

end Pairing.Worlds

/-- The pairing of runs of which the second has no spans at all. -/
def spansAside : Pairing := spansChanged Span.forget

theorem spansAside_fair : spansAside.Fair := spansChanged_fair Span.forget

theorem Value.only_all (a : Value) : a.Only fun _ => True := by
  cases a with
  | function f =>
    cases f with
    | builtin => exact trivial
    | declared => exact ⟨fun _ _ => trivial,fun _ _ => trivial⟩
  | _ => exact trivial

theorem Store.only_all (store : Store) : store.Only fun _ => True :=
  ⟨fun _ b _ => ⟨fun _ => b.value.only_all,fun _ => trivial⟩,fun _ a _ => a.only_all⟩

/-- Computations whose runs in paired worlds are alike. -/
def Script.InStep {α : Type} (kind : α → α → Prop) (m n : Script α) : Prop :=
  ∀ w v, spansAside.Worlds w v → (m w).Alike spansAside.Worlds (spansAside.Results kind) (n v)

open Script

section
variable {α β : Type} {kind : α → α → Prop} {other : β → β → Prop}

theorem inStep_bind {m n : Script α} {f g : α → Script β} (first : InStep kind m n)
    (second : ∀ a b, kind a b → InStep other (f a) (g b)) : InStep other (m >>= f) (n >>= g) := by
  intro w v worlds
  refine (first w v worlds).andThen fun r x r' y results after => ?_
  cases results with
  | ok paired => exact second _ _ paired x y after
  | error e => exact ⟨.error e,after⟩

theorem inStep_checkKilled : InStep (· = ·) checkKilled checkKilled := by
  intro w v worlds
  unfold checkKilled
  rw [worlds.asked]
  split
  · exact ⟨.error .killed,worlds.draw (·.stopGlide)⟩
  · exact ⟨.ok rfl,worlds⟩

theorem inStep_awaitTurtle : InStep (· = ·) awaitTurtle awaitTurtle := by
  intro w v worlds
  unfold awaitTurtle
  rw [worlds.sprite]
  split
  · exact ⟨worlds,fun w' v' _ _ worlds => inStep_checkKilled w' v' worlds⟩
  · exact ⟨.ok rfl,worlds⟩

theorem inStep_checkpoint : InStep (· = ·) checkpoint checkpoint := by
  let shown (w : World) : World := { w with monitor := { w.monitor with scope := some w.scope } }
  have shows : InStep (· = ·) (change shown) (change shown) := fun w v worlds =>
    ⟨.ok rfl,worlds.look (some w.scope) (some v.scope)⟩
  exact inStep_bind inStep_checkKilled fun _ _ _ => inStep_bind shows fun _ _ _ => inStep_awaitTurtle

/-- Running in step is respected by the ways of putting computations together. -/
theorem inStep_respects : spansAside.Respects InStep where
  pure paired _ _ worlds := ⟨.ok paired,worlds⟩
  fail _ _ _ worlds := ⟨.error _,worlds⟩
  bind := inStep_bind
  scope _ _ worlds := ⟨.ok worlds.scope.symm,worlds⟩
  callDepth _ _ worlds := ⟨.ok worlds.callDepth.symm,worlds⟩
  act steps w v worlds := by
    obtain ⟨r,r',x,y,left,right,results,after⟩ := steps.done worlds
    rw [left,right]
    exact ⟨results,after⟩
  locate span _ _ paired w v worlds := (paired w v worlds).locate span
  checkpoint := inStep_checkpoint
  atStatement index index' span span' _ _ worlds := ⟨.ok rfl,worlds.atStatement index index' span span'⟩
  inCall paired _ _ worlds := by
    refine (paired _ _ (worlds.atDepth (congrArg (· + 1) worlds.callDepth))).atEnd fun _ _ after => ?_
    exact after.atDepth worlds.callDepth
  inBlock scope length length' _ _ paired _ _ worlds :=
    (paired _ _ (worlds.enter scope length length')).atEnd fun _ _ after => after.exit worlds.scope

end

/-- Worlds that differ in spans only, and in what the host is told about where in the text the run is. -/
structure World.Alike (w v : World) : Prop where
  store : v.store.respan Span.forget = w.store.respan Span.forget
  sprite : v.sprite = w.sprite
  printed : v.printed = w.printed
  scope : v.scope = w.scope
  callDepth : v.callDepth = w.callDepth
  asked : v.monitor.killRequested = w.monitor.killRequested

theorem World.Alike.refl (w : World) : w.Alike w := ⟨rfl,rfl,rfl,rfl,rfl,rfl⟩

theorem World.Alike.worlds {w v : World} (alike : w.Alike v) :
    spansAside.Worlds v { w with store := w.store.respan Span.forget } :=
  ⟨⟨alike.store.symm,alike.sprite.symm,alike.printed.symm⟩,v.store.only_all,alike.scope.symm,alike.callDepth.symm,
    alike.asked.symm⟩

theorem alike_of_worlds {w v x : World} (left : spansAside.Worlds w x) (right : spansAside.Worlds v x) :
    w.Alike v where
  store := right.scenes.store.symm.trans left.scenes.store
  sprite := right.scenes.turtle.symm.trans left.scenes.turtle
  printed := right.scenes.printed.symm.trans left.scenes.printed
  scope := right.scope.symm.trans left.scope
  callDepth := right.callDepth.symm.trans left.callDepth
  asked := right.asked.symm.trans left.asked

theorem worlds_of_handed {f : Span → Span} {w w' x : World} (worlds : (spansChanged f).Worlds w x) (handed : Handed w w')
    {sprite : Turtle.Sprite} {asked : Bool} (isSprite : sprite = w'.sprite)
    (isAsked : asked = w'.monitor.killRequested) :
    (spansChanged f).Worlds w' { x with sprite := sprite, monitor := { x.monitor with killRequested := asked } } where
  scenes := by
    refine ⟨?_,isSprite,?_⟩
    · exact worlds.scenes.store.trans (congrArg (Store.respan f) handed.store.symm)
    · exact worlds.scenes.printed.trans handed.printed.symm
  only := w'.store.only_all
  scope := worlds.scope.trans handed.scope.symm
  callDepth := worlds.callDepth.trans handed.callDepth.symm
  asked := isAsked

theorem Run.Alike.meet {α : Type} {same : Except Interruption α → Except Interruption α → Prop} {a b c : Run α}
    (left : a.Alike spansAside.Worlds same c) (right : b.Alike spansAside.Worlds same c) :
    a.Alike World.Alike (fun r r' => ∃ o, same r o ∧ same r' o) b := by
  induction a generalizing b c with
  | done r w =>
    cases c with
    | waiting => exact left.elim
    | done o x =>
      cases b with
      | waiting => exact right.elim
      | done r' v => exact ⟨⟨o,left.1,right.1⟩,alike_of_worlds left.2 right.2⟩
  | waiting w resume ih =>
    cases c with
    | done => exact left.elim
    | waiting x third =>
      cases b with
      | done => exact right.elim
      | waiting v resume' =>
        refine ⟨alike_of_worlds left.1 right.1,fun w' v' handed handed' alike => ?_⟩
        let y : World := { x with
          sprite := w'.sprite, monitor := { x.monitor with killRequested := w'.monitor.killRequested } }
        have here : Handed x y := ⟨rfl,rfl,rfl,rfl,rfl,rfl⟩
        have beside := worlds_of_handed left.1 handed rfl rfl
        have beside' := worlds_of_handed right.1 handed' alike.sprite.symm alike.asked.symm
        exact ih w' (left.2 w' y handed here beside) (right.2 v' y handed' here beside')

def Outcome.respan (f : Span → Span) : Outcome → Outcome
  | .failed failure => .failed (failure.respan f)
  | o => o

/-- Results of statements that differ in spans only. -/
def SameFlow (r r' : Except Interruption Flow) : Prop :=
  ∃ o, spansAside.Results spansAside.Flows r o ∧ spansAside.Results spansAside.Flows r' o

/-- Statements that differ in spans only run alike in worlds that differ in spans only, wherever in a list they are. -/
theorem statements_alike (config : Config) (index index' : Nat) {ss ss' : List Stmt}
    (same : Stmt.bareAll ss' = Stmt.bareAll ss) {w v : World} (alike : w.Alike v) :
    (Stmt.execAll config (invoke config) index ss w).Alike World.Alike SameFlow
      (Stmt.execAll config (invoke config) index' ss' v) := by
  have inStep : ∀ (i : Nat) (ss : List Stmt), InStep spansAside.Flows (Stmt.execAll config (invoke config) i ss)
      (Stmt.execAll config (invoke config) 0 (Stmt.bareAll ss)) := by
    intro i ss
    rw [← Stmt.respanAll_forget]
    have limits : config.SameLimits config := ⟨rfl,rfl⟩
    exact inStep_respects.statements spansAside_fair limits i 0 fun _ _ => trivial
  have left := inStep index ss w _ (World.Alike.refl w).worlds
  have right := inStep index' ss' v _ alike.worlds
  rw [same] at right
  exact left.meet right

/-- Results with the same outcome, but for the span of a failure. -/
def SameEnd (r r' : Except Interruption Flow) : Prop :=
  (Outcome.ofResult r').respan Span.forget = (Outcome.ofResult r).respan Span.forget

theorem SameFlow.sameEnd {r r' : Except Interruption Flow} (flows : SameFlow r r') : SameEnd r r' := by
  obtain ⟨o,left,right⟩ := flows
  have outcome : ∀ {r}, spansAside.Results spansAside.Flows r o →
      (Outcome.ofResult r).respan Span.forget = Outcome.ofResult o := by
    intro r results
    cases results with
    | ok _ => rfl
    | error e => cases e <;> rfl
  exact (outcome right).trans (outcome left).symm

/-- Programs that differ in spans only run alike in worlds that differ in spans only. -/
theorem Program.script_alike (config : Config) {program other : Program} (same : other.bare = program.bare)
    {w v : World} (alike : w.Alike v) :
    (program.script config w).Alike World.Alike SameEnd (other.script config v) := by
  have statements := statements_alike config 0 0 (congrArg Program.statements same)
    (w := { w with scope := Store.global, callDepth := 0, monitor := w.monitor.enterBlock program.statements.length })
    (v := { v with scope := Store.global, callDepth := 0, monitor := v.monitor.enterBlock other.statements.length })
    ⟨alike.store,alike.sprite,alike.printed,rfl,rfl,alike.asked⟩
  have ends := statements.weaken fun _ _ => SameFlow.sameEnd
  refine (ends.atEnd fun x y after => ?_).atEnd fun x y after => ?_
  · exact ⟨after.store,after.sprite,after.printed,rfl,after.callDepth,after.asked⟩
  · exact ⟨after.store,after.sprite,after.printed,after.scope,after.callDepth,after.asked⟩

end TurtleScript
