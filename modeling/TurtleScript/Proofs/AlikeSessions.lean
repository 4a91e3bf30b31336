import TurtleScript.Proofs.Lifecycle
import TurtleScript.Proofs.Lockstep

/-!
Sessions that differ in spans only. Whatever a host does to two sessions that are alike, they stay alike
(`Session.Alike.apply`); and what it can see of them is the same, spans aside, whenever no run waits
(`Session.Alike.view`).
-/

namespace TurtleScript

/-- Two sessions are as far with programs that differ in spans only, with their worlds given. -/
inductive Phase.Alike (w v : World) : Phase → Phase → Prop where
  | idle : Alike w v .idle .idle
  | ready {program other : Program} (same : other.bare = program.bare) : Alike w v (.ready program) (.ready other)
  | suspended {program other : Program} {m n : World → Run Flow} (same : other.bare = program.bare)
      (runs : (Run.waiting w m).Alike World.Alike SameEnd (Run.waiting v n)) :
      Alike w v (.suspended program m) (.suspended other n)
  | finished {program other : Program} {o o' : Outcome} (same : other.bare = program.bare)
      (outcomes : o'.respan Span.forget = o.respan Span.forget) :
      Alike w v (.finished program o) (.finished other o')

/-- Compiling came to programs that differ in spans only, or to the same problems. -/
inductive Program.Compiled : Except (List Diagnostic) Program → Except (List Diagnostic) Program → Prop where
  | ok {program other : Program} (same : other.bare = program.bare) : Compiled (.ok program) (.ok other)
  | error (problems : List Diagnostic) : Compiled (.error problems) (.error problems)

theorem Program.compiled_refl (result : Except (List Diagnostic) Program) : Compiled result result := by
  cases result with
  | ok program => exact .ok rfl
  | error problems => exact .error problems

namespace World.Alike

variable {w v : World}

theorem draw (alike : w.Alike v) (f : Turtle.Sprite → Turtle.Sprite) :
    Alike { w with sprite := f w.sprite } { v with sprite := f v.sprite } :=
  ⟨alike.store,congrArg f alike.sprite,alike.printed,alike.scope,alike.callDepth,alike.asked⟩

theorem ask (alike : w.Alike v) (asked : Bool) :
    Alike { w with monitor := { w.monitor with killRequested := asked } }
      { v with monitor := { v.monitor with killRequested := asked } } :=
  ⟨alike.store,alike.sprite,alike.printed,alike.scope,alike.callDepth,rfl⟩

theorem visible (alike : w.Alike v) (id : FrameId) :
    (v.store.visible id).map (Store.Variable.respan Span.forget) =
      (w.store.visible id).map (Store.Variable.respan Span.forget) := by
  rw [← Store.visible_respan,← Store.visible_respan,alike.store]

/-- Worlds with the same turtle and the same lines printed, and all else new. -/
theorem anew (alike : w.Alike v) (store : Store) :
    Alike { sprite := w.sprite, printed := w.printed, store := store }
      { sprite := v.sprite, printed := v.printed, store := store } :=
  ⟨rfl,alike.sprite,alike.printed,rfl,rfl,rfl⟩

end World.Alike

namespace Session

structure Alike (s t : Session) : Prop where
  config : t.config = s.config
  world : s.world.Alike t.world
  phase : Phase.Alike s.world t.world s.phase t.phase
  diagnostics : t.diagnostics = s.diagnostics

namespace Alike

variable {s t : Session}

theorem settleIn (alike : s.Alike t) {program other : Program} (same : other.bare = program.bare) {run run' : Run Flow}
    (runs : run.Alike World.Alike SameEnd run') : (s.settleIn program run).Alike (t.settleIn other run') := by
  cases run with
  | done r w =>
    cases run' with
    | waiting => exact runs.elim
    | done r' v => exact ⟨alike.config,runs.2.ask false,.finished same runs.1,alike.diagnostics⟩
  | waiting w m =>
    cases run' with
    | done => exact runs.elim
    | waiting v n => exact ⟨alike.config,runs.1,.suspended same runs,alike.diagnostics⟩

theorem start (alike : s.Alike t) {program other : Program} (same : other.bare = program.bare) :
    (s.start program).Alike (t.start other) := by
  unfold Session.start
  rw [alike.config]
  exact alike.settleIn same (Program.script_alike s.config same alike.world)

theorem draw (alike : s.Alike t) (f : Turtle.Sprite → Turtle.Sprite) : (s.draw f).Alike (t.draw f) := by
  have world := alike.world.draw f
  refine ⟨alike.config,world,?_,alike.diagnostics⟩
  have phases := alike.phase
  show Phase.Alike _ _ s.phase t.phase
  generalize s.phase = phase at phases
  generalize t.phase = phase' at phases
  cases phases with
  | idle => exact .idle
  | ready same => exact .ready same
  | suspended same runs => exact .suspended same (runs.handed (handed_sprite _ _) (handed_sprite _ _) world)
  | finished same outcomes => exact .finished same outcomes

theorem phases (alike : s.Alike t) :
    (s.phase = .idle ∧ t.phase = .idle) ∨
    (∃ program other, other.bare = program.bare ∧ s.phase = .ready program ∧ t.phase = .ready other) ∨
    (∃ program other m n, other.bare = program.bare ∧ s.phase = .suspended program m ∧
      t.phase = .suspended other n ∧ (Run.waiting s.world m).Alike World.Alike SameEnd (.waiting t.world n)) ∨
    ∃ program other o o', other.bare = program.bare ∧ s.phase = .finished program o ∧
      t.phase = .finished other o' ∧ o'.respan Span.forget = o.respan Span.forget := by
  have phases := alike.phase
  generalize s.phase = phase at phases
  generalize t.phase = phase' at phases
  cases phases with
  | idle => exact .inl ⟨rfl,rfl⟩
  | ready same => exact .inr (.inl ⟨_,_,same,rfl,rfl⟩)
  | suspended same runs => exact .inr (.inr (.inl ⟨_,_,_,_,same,rfl,rfl,runs⟩))
  | finished same outcomes => exact .inr (.inr (.inr ⟨_,_,_,_,same,rfl,rfl,outcomes⟩))

theorem kill (alike : s.Alike t) : s.kill.Alike t.kill := by
  unfold Session.kill
  refine draw ?_ _
  rcases alike.phases with ⟨left,right⟩ | ⟨_,_,same,left,right⟩ | ⟨_,_,m,n,same,left,right,runs⟩ |
    ⟨_,_,_,_,same,left,right,_⟩
  · rw [left,right]
    exact alike
  · rw [left,right]
    exact ⟨alike.config,alike.world,.finished same rfl,alike.diagnostics⟩
  · rw [left,right]
    exact alike.settleIn same (runs.2 _ _ (handed_kill _ _) (handed_kill _ _) (alike.world.ask true))
  · rw [left,right]
    exact alike

theorem abandon (alike : s.Alike t) : s.abandon.Alike t.abandon := by
  unfold Session.abandon
  rcases alike.phases with ⟨left,right⟩ | ⟨_,_,_,left,right⟩ | ⟨_,_,_,_,_,left,right,_⟩ | ⟨_,_,_,_,_,left,right,_⟩
  · rw [left,right]
    exact alike
  · rw [left,right]
    exact alike
  · rw [left,right]
    exact alike.kill
  · rw [left,right]
    exact alike

theorem compile (alike : s.Alike t) {source text : String}
    (compiled : Program.Compiled (Program.compile source) (Program.compile text)) :
    (s.compile source).2.Alike (t.compile text).2 := by
  have stopped := alike.abandon
  unfold Session.compile Session.unload
  generalize Program.compile source = result at compiled
  generalize Program.compile text = result' at compiled
  cases compiled with
  | ok same =>
    refine ⟨stopped.config,?_,.ready same,rfl⟩
    show World.Alike { sprite := _, printed := _, store := .initial s.abandon.config }
      { sprite := _, printed := _, store := .initial t.abandon.config }
    rw [stopped.config]
    exact stopped.world.anew _
  | error problems => exact ⟨stopped.config,stopped.world.anew {},.idle,rfl⟩

theorem refresh (alike : s.Alike t) {program other : Program} (same : other.bare = program.bare) :
    (s.refresh.start program).Alike (t.refresh.start other) := by
  have world : s.refresh.world.Alike t.refresh.world := by
    unfold Session.refresh
    rw [alike.config]
    exact alike.world.anew _
  have fresh : Alike { s.refresh with phase := .idle } { t.refresh with phase := .idle } :=
    ⟨alike.config,world,.idle,alike.diagnostics⟩
  exact fresh.start same

theorem resume (alike : s.Alike t) : s.resume.Alike t.resume := by
  unfold Session.resume
  rcases alike.phases with ⟨left,right⟩ | ⟨_,_,_,left,right⟩ | ⟨_,_,_,_,same,left,right,runs⟩ |
    ⟨_,_,_,_,_,left,right,_⟩
  · rw [left,right]
    exact alike
  · rw [left,right]
    exact alike
  · rw [left,right]
    have moving : t.gliding = s.gliding := congrArg Turtle.Sprite.gliding alike.world.sprite
    dsimp only
    rw [moving,alike.world.asked]
    split
    · exact alike
    · exact alike.settleIn same (runs.2 _ _ (.refl _) (.refl _) alike.world)
  · rw [left,right]
    exact alike

theorem run (alike : s.Alike t) : s.run.Alike t.run := by
  unfold Session.run
  rcases alike.phases with ⟨left,right⟩ | ⟨_,_,same,left,right⟩ | ⟨_,_,_,_,_,left,right,_⟩ |
    ⟨_,_,_,_,same,left,right,_⟩
  · rw [left,right]
    exact alike
  · rw [left,right]
    exact alike.start same
  · rw [left,right]
    exact alike.resume
  · rw [left,right]
    exact alike.refresh same

theorem runLine (alike : s.Alike t) (source : String) : (s.runLine source).Alike (t.runLine source) := by
  have stopped := alike.abandon
  unfold Session.runLine
  dsimp only
  cases Program.compile source with
  | error problems => exact ⟨stopped.config,stopped.world,stopped.phase,rfl⟩
  | ok program =>
    have clean : Alike { s.abandon with diagnostics := [] } { t.abandon with diagnostics := [] } :=
      ⟨stopped.config,stopped.world,stopped.phase,rfl⟩
    dsimp only
    rcases stopped.phases with ⟨left,right⟩ | ⟨_,_,_,left,right⟩ | ⟨_,_,_,_,_,left,right,_⟩ |
      ⟨_,_,_,_,_,left,right,_⟩
    · rw [left,right]
      exact clean.refresh rfl
    all_goals
      rw [left,right]
      exact clean.start rfl

/-- Sessions that are alike stay so, whatever their host does to both of them. -/
theorem apply (alike : s.Alike t) (call : HostCall) : (s.apply call).Alike (t.apply call) := by
  cases call with
  | compile source => exact alike.compile (Program.compiled_refl _)
  | run => exact alike.run
  | resume => exact alike.resume
  | kill => exact alike.kill
  | runLine source => exact alike.runLine source
  | draw f => exact alike.draw f

theorem foldl (alike : s.Alike t) (calls : List HostCall) :
    (calls.foldl Session.apply s).Alike (calls.foldl Session.apply t) := by
  induction calls generalizing s t with
  | nil => exact alike
  | cons call calls ih => exact ih (alike.apply call)

end Alike

end Session

/-! ### What a host is shown -/

/-- At the end of the run the global scope is shown. -/
def Run.Homes (run : Run Flow) : Prop := ∀ r v, run.Ends r v → v.monitor.scope = some Store.global

theorem Program.script_homes (config : Config) (program : Program) (w : World) :
    (program.script config w).Homes := by
  intro r v ends
  obtain ⟨x,_,rfl⟩ := (Run.ends_atEnd _ _ r v).mp ends
  rfl

theorem Run.Homes.handed {w v : World} {m : World → Run Flow} (homes : (Run.waiting w m).Homes) (handed : Handed w v) :
    (Run.waiting v m).Homes := by
  intro r x ends
  obtain ⟨y,later,ends⟩ := Run.ends_waiting.mp ends
  exact homes r x (.waiting (handed.trans later) ends)

namespace Session

/-- Whenever no run waits, the global scope is shown. -/
structure Homed (s : Session) : Prop where
  shown :
    match s.phase with
    | .suspended _ m => (Run.waiting s.world m).Homes
    | _ => s.world.monitor.scope.getD Store.global = Store.global

variable {s t : Session}

theorem settleIn_homed (s : Session) (program : Program) {run : Run Flow} (homes : run.Homes) :
    (s.settleIn program run).Homed := by
  cases run with
  | done r w => exact ⟨congrArg (Option.getD · Store.global) (homes r w (.done r w))⟩
  | waiting w m => exact ⟨homes⟩

theorem start_homed (s : Session) (program : Program) : (s.start program).Homed :=
  s.settleIn_homed program (program.script_homes s.config s.world)

theorem compile_homed (s : Session) (source : String) : (s.compile source).2.Homed := by
  unfold compile
  split <;> exact ⟨rfl⟩

namespace Homed

theorem homes (homed : s.Homed) {program : Program} {m : World → Run Flow} (phase : s.phase = .suspended program m) :
    (Run.waiting s.world m).Homes := by
  have shown := homed.shown
  rwa [phase] at shown

theorem still (homed : s.Homed) (stopped : s.state ≠ .suspended) :
    s.world.monitor.scope.getD Store.global = Store.global := by
  have shown := homed.shown
  unfold state at stopped
  cases phase : s.phase with
  | suspended program m => simp [phase] at stopped
  | _ => rwa [phase] at shown

theorem draw (homed : s.Homed) (f : Turtle.Sprite → Turtle.Sprite) : (s.draw f).Homed := by
  refine ⟨?_⟩
  show match s.phase with
    | .suspended _ m => (Run.waiting { s.world with sprite := f s.world.sprite } m).Homes
    | _ => s.world.monitor.scope.getD Store.global = Store.global
  have shown := homed.shown
  cases phase : s.phase with
  | suspended program m => exact (homed.homes phase).handed (handed_sprite _ _)
  | _ => rwa [phase] at shown

theorem kill (homed : s.Homed) : s.kill.Homed := by
  unfold Session.kill
  refine draw ?_ _
  have shown := homed.shown
  cases phase : s.phase with
  | suspended program m =>
    refine s.settleIn_homed program fun r v ends => ?_
    exact homed.homes phase r v (.waiting (handed_kill _ _) ends)
  | ready program =>
    rw [phase] at shown
    exact ⟨shown⟩
  | _ => exact homed

theorem abandon (homed : s.Homed) : s.abandon.Homed := by
  unfold Session.abandon
  split
  · exact homed.kill
  · exact homed

theorem resume (homed : s.Homed) : s.resume.Homed := by
  unfold Session.resume
  split
  case h_1 program m phase =>
    split
    · exact homed
    · exact s.settleIn_homed program fun r v ends => homed.homes phase r v (.waiting (.refl _) ends)
  case h_2 => exact homed

theorem run (homed : s.Homed) : s.run.Homed := by
  unfold Session.run
  split
  · exact homed
  · exact s.start_homed _
  · exact homed.resume
  · exact s.refresh.start_homed _

theorem runLine (homed : s.Homed) (source : String) : (s.runLine source).Homed := by
  unfold Session.runLine
  dsimp only
  split
  · exact ⟨homed.abandon.shown⟩
  · split
    · exact start_homed _ _
    · exact start_homed _ _

theorem apply (homed : s.Homed) (call : HostCall) : (s.apply call).Homed := by
  cases call with
  | compile source => exact s.compile_homed source
  | run => exact homed.run
  | resume => exact homed.resume
  | kill => exact homed.kill
  | runLine source => exact homed.runLine source
  | draw f => exact homed.draw f

theorem foldl (homed : s.Homed) (calls : List HostCall) : (calls.foldl Session.apply s).Homed := by
  induction calls generalizing s with
  | nil => exact homed
  | cons call calls ih => exact ih (homed.apply call)

end Homed

/-- What a host can see of a session when no run waits, but for spans: also what the variables lead to. -/
structure View where
  state : State
  printed : Array String
  outcome : Option Outcome
  vars : List Store.Variable
  store : Store
  sprite : Turtle.Sprite

def view (s : Session) : View where
  state := s.state
  printed := s.world.printed
  outcome := s.outcome?.map (Outcome.respan Span.forget)
  vars := s.visible.map (Store.Variable.respan Span.forget)
  store := s.world.store.respan Span.forget
  sprite := s.world.sprite

theorem Alike.state (alike : s.Alike t) : t.state = s.state := by
  unfold Session.state
  rcases alike.phases with ⟨left,right⟩ | ⟨_,_,_,left,right⟩ | ⟨_,_,_,_,_,left,right,_⟩ | ⟨_,_,_,_,_,left,right,_⟩ <;>
    rw [left,right]

theorem Alike.outcome (alike : s.Alike t) :
    t.outcome?.map (Outcome.respan Span.forget) = s.outcome?.map (Outcome.respan Span.forget) := by
  unfold outcome?
  rcases alike.phases with ⟨left,right⟩ | ⟨_,_,_,left,right⟩ | ⟨_,_,_,_,_,left,right,_⟩ |
    ⟨_,_,_,_,_,left,right,outcomes⟩
  case inr.inr.inr =>
    rw [left,right]
    exact congrArg some outcomes
  all_goals rw [left,right]

theorem Alike.view (alike : s.Alike t) (homed : s.Homed) (homed' : t.Homed) (stopped : s.state ≠ .suspended) :
    t.view = s.view := by
  have shown := homed.still stopped
  have shown' := homed'.still (alike.state ▸ stopped)
  have vars : t.visible.map (Store.Variable.respan Span.forget) =
      s.visible.map (Store.Variable.respan Span.forget) := by
    unfold visible
    rw [shown,shown']
    exact alike.world.visible Store.global
  unfold Session.view
  rw [alike.state,alike.world.printed,alike.outcome,vars,alike.world.store,alike.world.sprite]

end Session

end TurtleScript
