import TurtleScript.Proofs.Following
import TurtleScript.Proofs.Lifecycle

/-!
Stopping a run that waits. However deep in blocks, loops, calls and expressions it waits, a request to stop
ends it there and then: nothing is done on the way out but to go back to the global scope, and the turtle is
put at the end of its way (`quits_compositional`). Whatever a host did before, killing a suspended session
therefore changes nothing but where the session stands (`kill_effect_free`).
-/

namespace TurtleScript

namespace Run

variable {α β : Type}

/-- Wherever the run waits, a standing request to stop ends it at once, with the scene as it was but for
the turtle, which stands at the end of its way. -/
def Quits : Run α → Prop
  | .done _ _ => True
  | .waiting w resume => ∀ v, Handed w v →
      (v.monitor.killRequested = true → ∃ x, resume v = .done (.error .killed) x ∧ x.scene = v.still.scene) ∧
        (resume v).Quits

/-- What is done to a run on its way out leaves it quitting, if it leaves the scene of a killed run. -/
theorem Quits.through {w : World} {resume : World → Run α} (quits : (waiting w resume).Quits) (g : Run α → Run β)
    (killed : ∀ x, ∃ y, g (.done (.error .killed) x) = .done (.error .killed) y ∧ y.scene = x.scene)
    (kept : ∀ v, (resume v).Quits → (g (resume v)).Quits) : (waiting w fun v => g (resume v)).Quits := by
  intro v handed
  obtain ⟨stops,later⟩ := quits v handed
  refine ⟨fun request => ?_,kept v later⟩
  obtain ⟨x,stopped,scene⟩ := stops request
  obtain ⟨y,same,left⟩ := killed x
  exact ⟨y,by simp only [stopped,same],left.trans scene⟩

theorem Quits.andThen {run : Run α} {f : α → World → Run β} (first : run.Quits) (second : ∀ a w, (f a w).Quits) :
    (run.andThen f).Quits := by
  induction run with
  | done result w =>
    cases result with
    | ok a => exact second a w
    | error e => exact trivial
  | waiting w resume ih => exact first.through (·.andThen f) (fun x => ⟨x,rfl,rfl⟩) ih

theorem Quits.locate {run : Run α} (span : Span) (quits : run.Quits) : (run.locate span).Quits := by
  induction run with
  | done result w => exact trivial
  | waiting w resume ih => exact quits.through (·.locate span) (fun x => ⟨x,rfl,rfl⟩) ih

theorem Quits.atEnd {run : Run α} (quits : run.Quits) {f : World → World} (scene : ∀ w, (f w).scene = w.scene) :
    (run.atEnd f).Quits := by
  induction run with
  | done result w => exact trivial
  | waiting w resume ih => exact quits.through (·.atEnd f) (fun x => ⟨f x,rfl,scene x⟩) ih

end Run

namespace Script

variable {α : Type}

def Quitting (m : Script α) : Prop := ∀ w, (m w).Quits

theorem quitting_ofAction {action : Action α} (contained : action.Contained) : Quitting (ofAction action) := by
  intro w
  rw [ofAction_eq contained]
  exact trivial

theorem quitting_checkKilled : Quitting checkKilled := by
  intro w
  unfold checkKilled
  split <;> exact trivial

/-- The one place where a run waits: it looks for a request first thing when it goes on. -/
theorem quitting_awaitTurtle : Quitting awaitTurtle := by
  intro w
  unfold awaitTurtle
  split
  · refine fun v _ => ⟨fun request => ?_,quitting_checkKilled v⟩
    exact ⟨v.still,if_pos request,rfl⟩
  · exact trivial

theorem quitting_change (f : World → World) : Quitting (change f) := fun _ => trivial

theorem quitting_checkpoint : Quitting checkpoint := by
  intro w
  refine (quitting_checkKilled w).andThen fun _ v => ?_
  exact (quitting_change _ v).andThen fun _ => quitting_awaitTurtle

theorem quits_compositional : Compositional Quitting (fun _ m => Quitting m) where
  pure _ _ := trivial
  look _ _ := trivial
  fail _ _ := trivial
  act := quitting_ofAction
  bind first second w := (first w).andThen second
  locate span _ inner w := (inner w).locate span
  checkpoint := quitting_checkpoint
  inCall inner _ := (inner _).atEnd fun _ => rfl
  inBlock _ _ _ inner _ := (inner _).atEnd fun _ => rfl
  nil _ _ _ := trivial
  cons _ _ _ _ first later _ := (first _).andThen later

end Script

/-- A run that quits when it is asked to, and that ends in the global scope, outside of any call. -/
structure Run.Returns (run : Run Flow) : Prop where
  quits : run.Quits
  ends : ∀ {result : Except Interruption Flow} {v : World}, run.Ends result v →
    v.scope = Store.global ∧ v.callDepth = 0

theorem script_returns (config : Config) (program : Program) (w : World) :
    (program.script config w).Returns where
  quits := by
    have statements := Script.quits_compositional.statements config program
    have inner : Script.Quitting (Script.inBlock Store.global program.statements.length _) :=
      Script.quits_compositional.inBlock Store.global statements
    exact Run.Quits.atEnd (inner { w with callDepth := 0, scope := Store.global }) fun _ => rfl
  ends := by
    intro result v ends
    have steady := Script.steady_inBlock Store.global (Script.steady_compositional.statements config program)
    obtain ⟨x,inner,rfl⟩ := (Run.ends_atEnd _ _ result v).mp ends
    have same := steady.ends inner
    exact ⟨same.scope,same.callDepth⟩

namespace Run.Returns

variable {w v : World} {resume : World → Run Flow}

theorem handed (returns : (Run.waiting w resume).Returns) (handed : Handed w v) :
    (Run.waiting v resume).Returns where
  quits := fun u later => returns.quits u (handed.trans later)
  ends := by
    intro result u ends
    obtain ⟨x,later,ends⟩ := ends_waiting.mp ends
    exact returns.ends (.waiting (handed.trans later) ends)

theorem resumed (returns : (Run.waiting w resume).Returns) (handed : Handed w v) : (resume v).Returns where
  quits := (returns.quits v handed).2
  ends ends := returns.ends (.waiting handed ends)

end Run.Returns

/-! ### Sessions -/

namespace Session

def Returns (s : Session) : Prop :=
  ∀ program resume, s.phase = .suspended program resume → (Run.waiting s.world resume).Returns

variable {s : Session}

theorem ofConfig_returns (config : Config) : (ofConfig config).Returns := fun _ _ phase => nomatch phase

theorem settleIn_returns (s : Session) (program : Program) {run : Run Flow} (returns : run.Returns) :
    (s.settleIn program run).Returns := by
  intro earlier resume phase
  cases run with
  | done result w => cases phase
  | waiting w m =>
    cases phase
    exact returns

theorem start_returns (s : Session) (program : Program) : (s.start program).Returns :=
  s.settleIn_returns program (script_returns s.config program s.world)

theorem Returns.draw (returns : s.Returns) (f : Turtle.Sprite → Turtle.Sprite) : (s.draw f).Returns :=
  fun program resume phase => (returns program resume phase).handed (handed_sprite s.world _)

theorem Returns.kill (returns : s.Returns) : s.kill.Returns := by
  unfold Session.kill
  refine Returns.draw ?_ _
  split
  case h_1 program resume phase =>
    exact s.settleIn_returns program ((returns program resume phase).resumed (handed_kill s.world true))
  case h_2 => exact fun _ _ phase => nomatch phase
  case h_3 => exact returns

theorem Returns.abandon (returns : s.Returns) : s.abandon.Returns := by
  unfold Session.abandon
  split
  · exact returns.kill
  · exact returns

theorem Returns.resume (returns : s.Returns) : s.resume.Returns := by
  unfold Session.resume
  split
  case h_1 program m phase =>
    split
    · exact returns
    · exact s.settleIn_returns program ((returns program m phase).resumed (.refl s.world))
  case h_2 => exact returns

theorem Returns.apply (returns : s.Returns) (call : HostCall) : (s.apply call).Returns := by
  cases call with
  | compile source =>
    show (s.compile source).2.Returns
    unfold Session.compile
    split <;> exact fun _ _ phase => nomatch phase
  | run =>
    show s.run.Returns
    unfold Session.run
    split
    · exact returns
    · exact s.start_returns _
    · exact returns.resume
    · exact s.refresh.start_returns _
  | resume => exact returns.resume
  | kill => exact returns.kill
  | runLine source =>
    show (s.runLine source).Returns
    have stopped := returns.abandon
    unfold Session.runLine
    split
    · exact stopped
    · simp only
      split <;> exact start_returns _ _
  | draw f => exact returns.draw f

theorem calls_returns (returns : s.Returns) (calls : List HostCall) : (calls.foldl Session.apply s).Returns := by
  induction calls generalizing s with
  | nil => exact returns
  | cons call calls ih => exact ih (returns.apply call)

/-- What killing a run that waits comes to: it is over in a world that differs from the one it waited in by
where the turtle is and by what the run had entered. -/
theorem Returns.kill_suspended (returns : s.Returns) (sound : s.Sound) {program : Program}
    {resume : World → Run Flow} (phase : s.phase = .suspended program resume) :
    ∃ x, s.kill = (s.settleIn program (.done (.error .killed) x)).draw (·.stopGlide) ∧
      x.scene = s.world.still.scene ∧ x.interpreter = ⟨s.world.store,Store.global,0⟩ ∧ x.monitor.blocks = [] := by
  let asked : World := { s.world with monitor := { s.world.monitor with killRequested := true } }
  have waits := returns program resume phase
  obtain ⟨x,stopped,scene⟩ := (waits.quits asked (handed_kill _ _)).1 rfl
  have ended : (resume asked).Ends (.error .killed) x := by
    rw [stopped]
    exact .done _ _
  obtain ⟨scope,depth⟩ := waits.ends (.waiting (handed_kill _ _) ended)
  refine ⟨x,?_,scene,?_,(sound.proper phase).ends (.waiting (handed_kill _ _) ended)⟩
  · unfold Session.kill
    rw [phase,← stopped]
  · have store : x.store = s.world.store := (congrArg Scene.store scene :)
    unfold World.interpreter
    rw [store,scope,depth]

end Session

open Slots in
/-- Killing a suspended session ends its run at once. Nothing is printed or drawn and nothing that the program
holds is changed; the turtle stands where it was bound to; and the interpreter is back in the global scope with
no request standing, ready for another line. -/
theorem kill_effect_free (config : Config) (calls : List HostCall) :
    let s := calls.foldl Session.apply (.ofConfig config)
    let k := s.kill
    s.state = .suspended →
      k.state = .finished ∧ k.outcome? = some .killed ∧
      k.world.printed = s.world.printed ∧ k.world.store = s.world.store ∧
      k.world.sprite = s.world.sprite.stopGlide ∧ k.world.sprite.gliding = false ∧
      k.world.sprite.position = s.world.sprite.destination ∧ k.world.sprite.canvas = s.world.sprite.canvas ∧
      k.block? = none ∧ k.world.monitor.killRequested = false ∧
      (ofSession k).task = none ∧ (ofSession k).interpreter = some ⟨s.world.store,Store.global,0⟩ ∧
      ∀ source program, Program.compile source = .ok program →
        k.runLine source = { k with diagnostics := [] }.start program := by
  intro s k suspended
  obtain ⟨sound,_⟩ := calls_ofSession (Session.ofConfig_sound config) calls
  have returns : s.Returns := Session.calls_returns (Session.ofConfig_returns config) calls
  obtain ⟨program,resume,phase⟩ : ∃ program resume, s.phase = .suspended program resume := by
    unfold Session.state at suspended
    cases phase : s.phase <;> simp_all
  obtain ⟨x,killed,scene,interpreter,blocks⟩ := returns.kill_suspended sound phase
  have ended : k = _ := killed
  have sprite : k.world.sprite = s.world.sprite.stopGlide := by
    rw [ended]
    show x.scene.sprite.stopGlide = _
    rw [scene]
    exact s.world.sprite.stopGlide_stopGlide
  have finished : k.phase = .finished program .killed := by
    rw [ended]
    rfl
  refine ⟨?_,?_,?_,?_,sprite,?_,?_,?_,?_,?_,?_,?_,?_⟩
  · unfold Session.state
    rw [finished]
  · unfold Session.outcome?
    rw [finished]
  · rw [ended]
    exact congrArg Scene.printed scene
  · rw [ended]
    exact congrArg Scene.store scene
  · rw [sprite]
    rfl
  · rw [sprite]
    rfl
  · rw [sprite]
    rfl
  · have left : k.world.monitor.blocks = [] := by
      rw [ended]
      exact blocks
    unfold Session.block?
    rw [left]
  · rw [ended]
    rfl
  · rw [ofSession_finished finished]
    rfl
  · rw [ofSession_finished finished,← interpreter,ended]
    rfl
  · intro source next compiles
    have stays : k.abandon = k := by
      unfold Session.abandon
      rw [finished]
    unfold Session.runLine
    simp only [compiles,stays,finished]

/-- A program that waits inside a call inside an expression. -/
def waitInArgument : String :=
  "function go(a) \x7b setPos(a, a); print(a); return a; \x7d var b = [1, 1 + go(2)];"

theorem kill_effect_free_argument :
    let s := [HostCall.compile waitInArgument,.run].foldl Session.apply (.ofConfig {})
    s.state = .suspended ∧ s.world.callDepth = 1 ∧ s.kill.outcome? = some .killed ∧
      s.kill.world.printed = #[] ∧ (Slots.ofSession s.kill).interpreter.map (·.callDepth) = some 0 := by
  intro s
  have facts : s.state = .suspended ∧ s.world.callDepth = 1 ∧ s.world.printed = #[] := by decide +kernel
  obtain ⟨suspended,deep,silent⟩ := facts
  obtain ⟨_,outcome,printed,_,_,_,_,_,_,_,_,interpreter,_⟩ :=
    kill_effect_free {} [.compile waitInArgument,.run] suspended
  refine ⟨suspended,deep,outcome,printed.trans silent,?_⟩
  rw [interpreter]
  rfl

end TurtleScript
