import TurtleScript.Proofs.Obedience
import TurtleScript.Proofs.Restoration
import TurtleScript.Proofs.Slots

/-!
The life of a session. Whatever a host does to it, a session stays sound: no request to stop is left
standing, and lists of statements are entered just as long as a run waits (`Session.Sound`). Sound
sessions and their slots go through every call side by side (`apply_ofSession`), so the slots always
agree with each other (`lifecycle_coherent`).
-/

namespace TurtleScript

/-- What a host does to a session. -/
inductive HostCall where
  | compile (source : String)
  | run
  | resume
  | kill
  | runLine (source : String)
  /-- Any operation on the turtle. -/
  | draw (f : Turtle.Sprite → Turtle.Sprite)

/-- A session after a call of its host. -/
def Session.apply (s : Session) : HostCall → Session
  | .compile source => (s.compile source).2
  | .run => s.run
  | .resume => s.resume
  | .kill => s.kill
  | .runLine source => s.runLine source
  | .draw f => s.draw f

namespace Slots

/-- The slots after a call of the host. -/
def apply (s : Slots) : HostCall → Slots
  | .compile source => (s.compile source).2
  | .run => s.run
  | .resume => s.resume
  | .kill => s.kill
  | .runLine source => s.runLine source
  | .draw f => s.draw f

def held (s : Session) : Slots :=
  { config := s.config
    sprite := s.world.sprite
    printed := s.world.printed
    monitor := s.world.monitor
    diagnostics := s.diagnostics }

/-- The slots of a session between runs of a program. -/
def between (s : Session) (program : Program) (state : RunState) (outcome : Option Outcome) : Slots :=
  { held s with
    program := some program
    interpreter := some s.world.interpreter
    state := state
    outcome := outcome }

/-- The slots of a session with a run of a program in progress. -/
def during (s : Session) (program : Program) (state : RunState) (resume : World → Run Flow) (parked : Bool) :
    Slots :=
  { held s with
    program := some program
    task := some ⟨s.world.interpreter,resume,parked⟩
    state := state }

def ofSession (s : Session) : Slots :=
  match s.phase with
  | .idle => held s
  | .ready program => between s program .ready none
  | .suspended program resume => during s program .suspended resume true
  | .finished program outcome => between s program .finished (some outcome)

/-- Slots that agree with each other and with the state, between the calls of a host. -/
structure Coherent (s : Slots) : Prop where
  rests : s.state ≠ .running
  suspended_iff_task : s.state = .suspended ↔ s.task.isSome
  suspended_iff_block : s.state = .suspended ↔ s.block?.isSome
  block_shown : ∀ depth cursor, s.block? = some (depth,cursor) →
    cursor.index < cursor.length ∧ cursor.span.isSome
  moved : s.task.isSome → s.interpreter.isNone
  loaded : s.state = .ready ∨ s.state = .finished → s.interpreter.isSome ∧ s.program.isSome
  idle : s.state = .idle →
    s.program.isNone ∧ s.interpreter.isNone ∧ s.task.isNone ∧ s.outcome.isNone
  outcome_iff : s.outcome.isSome ↔ s.state = .finished
  unasked : s.monitor.killRequested = false

end Slots

/-- A run of a program that nobody has asked to stop: it obeys its host, waits in front of statements
only, and leaves no list of statements entered. -/
structure Run.Proper (run : Run Flow) : Prop where
  obeys : run.Obeys false
  waits : ∀ {u : World}, run.Waits u → OnStatement u
  ends : ∀ {result : Except Interruption Flow} {v : World}, run.Ends result v → v.monitor.blocks = []

namespace Run.Proper

variable {w v : World} {resume : World → Run Flow}

/-- A run that waits is proper still when its host has done something else than ask it to stop. -/
theorem handed (proper : (Run.waiting w resume).Proper) (handed : Handed w v)
    (unasked : v.monitor.killRequested = false) : (Run.waiting v resume).Proper where
  obeys := ⟨unasked,fun u later => proper.obeys.2 u (handed.trans later)⟩
  waits := by
    intro u waits
    rcases waits_waiting.mp waits with rfl | ⟨x,later,waits⟩
    · exact (proper.waits (.here w resume)).of_samePlace handed.samePlace
    · exact proper.waits (.later (handed.trans later) waits)
  ends := by
    intro result u ends
    obtain ⟨x,later,ends⟩ := ends_waiting.mp ends
    exact proper.ends (.waiting (handed.trans later) ends)

theorem resumed (proper : (Run.waiting w resume).Proper) : (resume w).Proper where
  obeys := by
    have unasked : w.monitor.killRequested = false := proper.obeys.1
    have obeys := (proper.obeys.2 w (.refl w)).2
    rwa [unasked] at obeys
  waits waits := proper.waits (.later (.refl w) waits)
  ends ends := proper.ends (.waiting (.refl w) ends)

end Run.Proper

/-- A program that is started outside of any list of statements runs properly. -/
theorem script_proper (config : Config) (program : Program) {w : World}
    (unasked : w.monitor.killRequested = false) (outside : w.monitor.blocks = []) :
    (program.script config w).Proper where
  obeys := by
    have obeys := script_obedient config program w
    rwa [unasked] at obeys
  waits := by
    intro u waits
    have fills := Script.steady_compositional.statements config program
    exact fills.waits rfl rfl ((Run.waits_atEnd _ _ u).mp ((Run.waits_atEnd _ _ u).mp waits))
  ends := by
    intro result v ends
    have steady := Script.steady_inBlock Store.global (Script.steady_compositional.statements config program)
    obtain ⟨x,inner,rfl⟩ := (Run.ends_atEnd _ _ result v).mp ends
    exact (steady.ends inner).blocks.trans outside

namespace Session

/-- No request to stop is standing, and lists of statements are entered by a run that waits only. -/
structure Sound (s : Session) : Prop where
  unasked : s.world.monitor.killRequested = false
  placed :
    match s.phase with
    | .suspended _ resume => (Run.waiting s.world resume).Proper
    | _ => s.world.monitor.blocks = []

variable {s : Session}

theorem ofConfig_sound (config : Config) : (ofConfig config).Sound := ⟨rfl,rfl⟩

/-- Whatever a proper run has got to, the session that takes it over is sound. -/
theorem settleIn_sound (s : Session) (program : Program) {run : Run Flow} (proper : run.Proper) :
    (s.settleIn program run).Sound := by
  cases run with
  | done result w =>
    have outside : w.monitor.blocks = [] := proper.ends (.done result w)
    exact ⟨rfl,outside⟩
  | waiting w resume => exact ⟨proper.obeys.1,proper⟩

theorem start_sound (program : Program) (unasked : s.world.monitor.killRequested = false)
    (outside : s.world.monitor.blocks = []) : (s.start program).Sound :=
  s.settleIn_sound program (script_proper s.config program unasked outside)

theorem refresh_start_sound (s : Session) (program : Program) : (s.refresh.start program).Sound :=
  start_sound program rfl rfl

theorem Sound.draw (sound : s.Sound) (f : Turtle.Sprite → Turtle.Sprite) : (s.draw f).Sound := by
  obtain ⟨unasked,placed⟩ := sound
  refine ⟨unasked,?_⟩
  show match s.phase with
    | .suspended _ resume => (Run.waiting { s.world with sprite := f s.world.sprite } resume).Proper
    | _ => s.world.monitor.blocks = []
  split
  case h_1 program resume phase =>
    rw [phase] at placed
    exact placed.handed (handed_sprite s.world _) unasked
  case h_2 other =>
    split at placed
    · exact absurd ‹_› (other _ _)
    · exact placed

theorem Sound.proper (sound : s.Sound) {program : Program} {resume : World → Run Flow}
    (phase : s.phase = .suspended program resume) : (Run.waiting s.world resume).Proper := by
  have placed := sound.placed
  rwa [phase] at placed

theorem Sound.kill_suspended (sound : s.Sound) {program : Program} {resume : World → Run Flow}
    (phase : s.phase = .suspended program resume) :
    s.kill.Sound ∧ s.kill.phase = .finished program .killed := by
  have proper := sound.proper phase
  let asked : World := { s.world with monitor := { s.world.monitor with killRequested := true } }
  obtain ⟨x,stopped⟩ := (proper.obeys.2 asked (handed_kill _ _)).1 rfl
  have ended : (resume asked).Ends (.error .killed) x := by
    rw [stopped]
    exact .done _ _
  have blocks : x.monitor.blocks = [] := proper.ends (.waiting (handed_kill _ _) ended)
  have killed : s.kill = (s.settleIn program (.done (.error .killed) x)).draw (·.stopGlide) := by
    unfold kill
    rw [phase,← stopped]
  rw [killed]
  exact ⟨⟨rfl,blocks⟩,rfl⟩

theorem Sound.kill (sound : s.Sound) : s.kill.Sound := by
  cases phase : s.phase with
  | suspended program resume => exact (sound.kill_suspended phase).1
  | ready program =>
    have outside : s.world.monitor.blocks = [] := by
      have placed := sound.placed
      rwa [phase] at placed
    have killed : s.kill = { s with phase := .finished program .killed }.draw (·.stopGlide) := by
      unfold Session.kill
      rw [phase]
    have finished : Sound { s with phase := .finished program .killed } := ⟨sound.unasked,outside⟩
    rw [killed]
    exact finished.draw _
  | _ =>
    have killed : s.kill = s.draw (·.stopGlide) := by
      unfold Session.kill
      rw [phase]
    rw [killed]
    exact sound.draw _

theorem Sound.abandon (sound : s.Sound) :
    s.abandon.Sound ∧ ∀ program resume, s.abandon.phase ≠ .suspended program resume := by
  unfold Session.abandon
  split
  case h_1 program resume phase =>
    obtain ⟨kept,finished⟩ := sound.kill_suspended phase
    refine ⟨kept,fun _ _ same => ?_⟩
    rw [finished] at same
    cases same
  case h_2 other => exact ⟨sound,fun program resume same => other program resume same⟩

theorem Sound.outside (sound : s.Sound) (still : ∀ program resume, s.phase ≠ .suspended program resume) :
    s.world.monitor.blocks = [] := by
  have placed := sound.placed
  split at placed
  · exact absurd ‹_› (still _ _)
  · exact placed

theorem compile_sound (s : Session) (source : String) : (s.compile source).2.Sound := by
  unfold compile
  split <;> exact ⟨rfl,rfl⟩

theorem Sound.resume (sound : s.Sound) : s.resume.Sound := by
  unfold Session.resume
  split
  case h_1 program resume phase =>
    split
    · exact sound
    · exact s.settleIn_sound program (sound.proper phase).resumed
  case h_2 => exact sound

theorem Sound.run (sound : s.Sound) : s.run.Sound := by
  unfold Session.run
  split
  case h_1 => exact sound
  case h_2 program phase =>
    refine start_sound program sound.unasked (sound.outside fun p r same => ?_)
    rw [phase] at same
    cases same
  case h_3 => exact sound.resume
  case h_4 program outcome phase => exact s.refresh_start_sound program

theorem Sound.runLine (sound : s.Sound) (source : String) : (s.runLine source).Sound := by
  obtain ⟨kept,still⟩ := sound.abandon
  unfold Session.runLine
  cases Program.compile source with
  | error diagnostics => exact ⟨kept.unasked,kept.placed⟩
  | ok program =>
    simp only
    split
    · exact refresh_start_sound _ program
    · exact start_sound program kept.unasked (kept.outside still)

theorem Sound.apply (sound : s.Sound) (call : HostCall) : (s.apply call).Sound := by
  cases call with
  | compile source => exact s.compile_sound source
  | run => exact sound.run
  | resume => exact sound.resume
  | kill => exact sound.kill
  | runLine source => exact sound.runLine source
  | draw f => exact sound.draw f

end Session

/-! ### Sessions and their slots side by side -/

namespace Slots

theorem load_eq (s : Slots) : s.load = (true,{ s with
    interpreter := some { store := .initial s.config }
    monitor := {}
    outcome := none
    state := .ready }) := by
  let entries := Library.standard.entries ++ Library.drawing.entries ++ (Library.screen s.config).entries
  have bound : Library.bindEntries Store.global entries {} = (.ok (),.initial s.config) := rfl
  unfold load
  simp only [entries] at bound
  simp only [bound]

section
variable {s : Session} {program : Program}

theorem ofSession_idle (phase : s.phase = .idle) : ofSession s = held s := by
  unfold ofSession
  rw [phase]

theorem ofSession_ready (phase : s.phase = .ready program) : ofSession s = between s program .ready none := by
  unfold ofSession
  rw [phase]

theorem ofSession_suspended {m : World → Run Flow} (phase : s.phase = .suspended program m) :
    ofSession s = during s program .suspended m true := by
  unfold ofSession
  rw [phase]

theorem ofSession_finished {outcome : Outcome} (phase : s.phase = .finished program outcome) :
    ofSession s = between s program .finished (some outcome) := by
  unfold ofSession
  rw [phase]

end

/-- A run that need not wait any more takes the slots to where it takes the session. -/
theorem poll_during (s : Session) (program : Program) (state : RunState) (m : World → Run Flow) (parked : Bool)
    (goes : (parked && s.world.sprite.gliding && !s.world.monitor.killRequested) = false) :
    (during s program state m parked).poll = ofSession (s.settleIn program (m s.world)) := by
  show (if (parked && s.world.sprite.gliding && !s.world.monitor.killRequested) = true then _
    else settle _ (m s.world)) = _
  rw [if_neg (by rw [goes]; exact Bool.false_ne_true)]
  cases m s.world with
  | done result w => rfl
  | waiting w resume => rfl

theorem start_between (s : Session) (program : Program) (state : RunState) :
    (between s program state none).start = ofSession (s.start program) :=
  poll_during s program state (program.script s.config) false rfl

theorem load_between (s : Session) (program : Program) (state : RunState) (outcome : Option Outcome) :
    (between s program state outcome).load = (true,between s.refresh program .ready none) := by
  rw [load_eq]
  rfl

theorem resume_ofSession {s : Session} (sound : s.Sound) : (ofSession s).resume = ofSession s.resume := by
  unfold resume Session.resume Session.gliding
  cases phase : s.phase with
  | idle =>
    rw [ofSession_idle phase]
    rfl
  | ready program =>
    rw [ofSession_ready phase]
    rfl
  | finished program outcome =>
    rw [ofSession_finished phase]
    rfl
  | suspended program m =>
    have unasked := sound.unasked
    rw [ofSession_suspended phase]
    by_cases moving : s.world.sprite.gliding
    · simp [during,held,moving,unasked,ofSession_suspended phase]
    · have goes : (true && s.world.sprite.gliding && !s.world.monitor.killRequested) = false := by
        simp [moving]
      rw [if_pos ⟨rfl,by simp [during,held,moving]⟩]
      simp only [moving,Bool.false_and,Bool.false_eq_true,if_false]
      exact poll_during s program .suspended m true goes

theorem draw_ofSession (s : Session) (f : Turtle.Sprite → Turtle.Sprite) :
    (ofSession s).draw f = ofSession (s.draw f) := by
  cases phase : s.phase with
  | idle =>
    rw [ofSession_idle phase,ofSession_idle (s := s.draw f) phase]
    rfl
  | ready program =>
    rw [ofSession_ready phase,ofSession_ready (s := s.draw f) phase]
    rfl
  | suspended program m =>
    rw [ofSession_suspended phase,ofSession_suspended (s := s.draw f) phase]
    rfl
  | finished program outcome =>
    rw [ofSession_finished phase,ofSession_finished (s := s.draw f) phase]
    rfl

theorem kill_ofSession (s : Session) : (ofSession s).kill = ofSession s.kill := by
  unfold Session.kill
  rw [← draw_ofSession]
  unfold kill draw
  cases phase : s.phase with
  | idle =>
    simp only [ofSession_idle phase]
    rfl
  | ready program =>
    simp only [ofSession_ready phase]
    rfl
  | finished program outcome =>
    simp only [ofSession_finished phase]
    rfl
  | suspended program m =>
    -- The request makes the run go on wherever the turtle is.
    let asked : Session :=
      { s with world := { s.world with monitor := { s.world.monitor with killRequested := true } } }
    have polled := poll_during asked program .suspended m true (by simp [asked])
    rw [ofSession_suspended phase]
    exact congrArg (·.draw (·.stopGlide)) polled

theorem state_suspended {s : Session} :
    (ofSession s).state = .suspended ↔ ∃ program m, s.phase = .suspended program m := by
  cases phase : s.phase with
  | suspended program m => simp [ofSession_suspended phase,during]
  | idle => simp [ofSession_idle phase,held]
  | ready program => simp [ofSession_ready phase,between]
  | finished program outcome => simp [ofSession_finished phase,between]

theorem state_ne_running (s : Session) : (ofSession s).state ≠ .running := by
  cases phase : s.phase with
  | suspended program m => simp [ofSession_suspended phase,during]
  | idle => simp [ofSession_idle phase,held]
  | ready program => simp [ofSession_ready phase,between]
  | finished program outcome => simp [ofSession_finished phase,between]

theorem abandon_ofSession (s : Session) : (ofSession s).abandon = ofSession s.abandon := by
  unfold abandon
  by_cases waits : ∃ program m, s.phase = .suspended program m
  · have same : s.abandon = s.kill := by
      obtain ⟨program,m,phase⟩ := waits
      unfold Session.abandon
      rw [phase]
    rw [if_pos (.inr (state_suspended.mpr waits)),kill_ofSession,same]
  · have same : s.abandon = s := by
      unfold Session.abandon
      split
      · exact absurd ⟨_,_,‹_›⟩ waits
      · rfl
    rw [if_neg,same]
    rintro (state | state)
    · exact state_ne_running s state
    · exact waits (state_suspended.mp state)

/-- What is left of the slots of a session with no run in progress when the program is forgotten. -/
theorem unload_ofSession {s : Session} (sound : s.Sound) : (ofSession s).unload = ofSession s.unload := by
  have still := sound.abandon.2
  unfold unload Session.unload
  rw [abandon_ofSession]
  cases phase : s.abandon.phase with
  | suspended program m => exact absurd phase (still program m)
  | idle =>
    rw [ofSession_idle phase]
    rfl
  | ready program =>
    rw [ofSession_ready phase]
    rfl
  | finished program outcome =>
    rw [ofSession_finished phase]
    rfl

theorem compile_ofSession {s : Session} (sound : s.Sound) (source : String) :
    (ofSession s).compile source = ((s.compile source).1,ofSession (s.compile source).2) := by
  unfold compile Session.compile
  rw [unload_ofSession sound]
  cases Program.compile source with
  | error diagnostics => rfl
  | ok program =>
    simp only [load_eq]
    rfl

theorem run_ofSession {s : Session} (sound : s.Sound) : (ofSession s).run = ofSession s.run := by
  unfold Session.run
  cases phase : s.phase with
  | idle =>
    rw [ofSession_idle phase]
    rfl
  | ready program =>
    rw [ofSession_ready phase]
    exact start_between s program .ready
  | suspended program m =>
    have waits : (ofSession s).state = .suspended := state_suspended.mpr ⟨program,m,phase⟩
    have resumed := resume_ofSession sound
    unfold run
    rw [waits]
    exact resumed
  | finished program outcome =>
    rw [ofSession_finished phase]
    show (if (between s program .finished (some outcome)).load.1 then
      (between s program .finished (some outcome)).load.2.start
      else (between s program .finished (some outcome)).load.2) = _
    rw [load_between]
    exact start_between s.refresh program .ready

theorem diagnose_ofSession (s : Session) (diagnostics : List Diagnostic) :
    { ofSession s with diagnostics := diagnostics } = ofSession { s with diagnostics := diagnostics } := by
  unfold ofSession
  cases s.phase <;> rfl

/-- A program runs on the slots of a session as on the session, unless another one waits. -/
theorem runOn_ofSession {s : Session} (still : ∀ program m, s.phase ≠ .suspended program m)
    (program : Program) :
    (ofSession s).runOn program =
      ofSession (match s.phase with | .idle => s.refresh.start program | _ => s.start program) := by
  unfold runOn
  cases phase : s.phase with
  | suspended earlier m => exact absurd phase (still earlier m)
  | idle =>
    rw [ofSession_idle phase,load_eq]
    exact start_between s.refresh program .ready
  | ready earlier =>
    rw [ofSession_ready phase]
    exact start_between s program .ready
  | finished earlier outcome =>
    rw [ofSession_finished phase]
    exact start_between s program .finished

theorem runLine_ofSession {s : Session} (sound : s.Sound) (source : String) :
    (ofSession s).runLine source = ofSession (s.runLine source) := by
  unfold runLine Session.runLine
  rw [abandon_ofSession]
  cases Program.compile source with
  | error diagnostics => exact diagnose_ofSession _ _
  | ok program =>
    have still := sound.abandon.2
    simp only [diagnose_ofSession]
    exact runOn_ofSession (s := { s.abandon with diagnostics := [] }) still program

theorem apply_ofSession {s : Session} (sound : s.Sound) (call : HostCall) :
    (ofSession s).apply call = ofSession (s.apply call) := by
  cases call with
  | compile source => exact congrArg Prod.snd (compile_ofSession sound source)
  | run => exact run_ofSession sound
  | resume => exact resume_ofSession sound
  | kill => exact kill_ofSession s
  | runLine source => exact runLine_ofSession sound source
  | draw f => exact draw_ofSession s f

theorem coherent_ofSession {s : Session} (sound : s.Sound) : (ofSession s).Coherent := by
  have unasked := sound.unasked
  have placed := sound.placed
  cases phase : s.phase with
  | suspended program m =>
    rw [phase] at placed
    obtain ⟨top,below,blocks,inside,known⟩ := placed.waits (.here _ _)
    have block : (during s program .suspended m true).block? = some (below.length,top) := by
      simp only [block?,during,held,blocks]
    rw [ofSession_suspended phase]
    constructor <;> simp_all [during,held]
  | idle =>
    rw [phase] at placed
    have block : (held s).block? = none := by
      simp only [block?,held,placed]
    rw [ofSession_idle phase]
    constructor <;> simp_all [held]
  | ready program =>
    rw [phase] at placed
    have block : (between s program .ready none).block? = none := by
      simp only [block?,between,held,placed]
    rw [ofSession_ready phase]
    constructor <;> simp_all [between,held]
  | finished program outcome =>
    rw [phase] at placed
    have block : (between s program .finished (some outcome)).block? = none := by
      simp only [block?,between,held,placed]
    rw [ofSession_finished phase]
    constructor <;> simp_all [between,held]

end Slots

open Slots

/-- Sessions are sound and go side by side with their slots through any calls of a host. -/
theorem calls_ofSession {s : Session} (sound : s.Sound) (calls : List HostCall) :
    (calls.foldl Session.apply s).Sound ∧
      calls.foldl Slots.apply (ofSession s) = ofSession (calls.foldl Session.apply s) := by
  induction calls generalizing s with
  | nil => exact ⟨sound,rfl⟩
  | cons call calls ih =>
    simp only [List.foldl_cons,apply_ofSession sound]
    exact ih (sound.apply call)

/-- Whatever a host does to a session and in whatever order, its slots agree with each other, and they
are those of the session the calls lead to. -/
theorem lifecycle_coherent (config : Config) (calls : List HostCall) :
    (calls.foldl Slots.apply (Slots.ofConfig config)).Coherent ∧
      calls.foldl Slots.apply (Slots.ofConfig config) =
        ofSession (calls.foldl Session.apply (.ofConfig config)) := by
  obtain ⟨sound,same⟩ := calls_ofSession (Session.ofConfig_sound config) calls
  have start : ofSession (.ofConfig config) = Slots.ofConfig config := rfl
  rw [start] at same
  rw [same]
  exact ⟨coherent_ofSession sound,rfl⟩

end TurtleScript
