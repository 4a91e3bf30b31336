import TurtleScript.Proofs.Laws
import TurtleScript.Proofs.Lifecycle

/-!
Sessions under a law. A law that programs keep and that a fresh store starts with holds in every session
with a program, whatever its host does to it (`Session.Lawful.calls`), as long as the turtles that the
host makes are such as the law allows.
-/

namespace TurtleScript

open Session

def HostCall.Respects (law : Law) : HostCall → Prop
  | .draw f => ∀ x, law.turtle x → law.turtle (f x)
  | _ => True

/-- A session with a configuration, in which a law holds as soon as there is a program, and whose run
keeps it wherever it goes on from. -/
structure Session.Lawful (law : Law) (config : Config) (s : Session) : Prop where
  configured : s.config = config
  turtle : law.turtle s.world.sprite
  loaded : s.phase ≠ .idle → law.At s.world
  waits : ∀ {program : Program} {resume : World → Run Flow}, s.phase = .suspended program resume →
    ∃ w before, Handed w s.world ∧ law.At before ∧ (Run.waiting w resume).Keeps law before law.FitsFlow

namespace Session

variable {law : Law} {config : Config} {s : Session}

theorem settleIn_lawful (kept : law.Kept) (configured : s.config = config) (program : Program)
    {run : Run Flow} {before : World} (inside : law.At before) (keeps : run.Keeps law before law.FitsFlow) :
    (s.settleIn program run).Lawful law config := by
  cases run with
  | done result w =>
    obtain ⟨scope,step,_⟩ := keeps
    have after : law.At w := inside.later scope step
    exact ⟨configured,kept.turtle after.1,fun _ => after,fun same => nomatch same⟩
  | waiting w resume =>
    have waiting := keeps.2.1
    refine ⟨configured,kept.turtle waiting.1,fun _ => waiting,fun same => ?_⟩
    cases same
    exact ⟨w,before,.refl w,inside,keeps⟩

theorem start_lawful (kept : law.Kept) (configured : s.config = config) (holds : law.holds s.world.scene)
    (program : Program) : (s.start program).Lawful law config := by
  have inside : law.At { s.world with callDepth := 0, scope := Store.global } := ⟨holds,kept.global holds⟩
  exact settleIn_lawful kept configured program inside (kept.script s.config program holds)

/-- A run that waits keeps the law in any world that its host has made of the one it waits in. -/
theorem Lawful.resumed (lawful : s.Lawful law config) {program : Program} {resume : World → Run Flow}
    (phase : s.phase = .suspended program resume) {v : World} (handed : Handed s.world v)
    (turtle : law.turtle v.sprite) : ∃ before, law.At before ∧ (resume v).Keeps law before law.FitsFlow := by
  obtain ⟨w,before,first,inside,keeps⟩ := lawful.waits phase
  exact ⟨before,inside,keeps.2.2.2 v (first.trans handed) turtle⟩

theorem Lawful.draw (kept : law.Kept) (lawful : s.Lawful law config) {f : Turtle.Sprite → Turtle.Sprite}
    (respects : ∀ x, law.turtle x → law.turtle (f x)) : (s.draw f).Lawful law config where
  configured := lawful.configured
  turtle := respects _ lawful.turtle
  loaded loaded :=
    (lawful.loaded loaded).later rfl (kept.handed (lawful.loaded loaded).1 (respects _ lawful.turtle))
  waits phase := by
    obtain ⟨w,before,handed,inside,keeps⟩ := lawful.waits phase
    exact ⟨w,before,handed.trans (handed_sprite s.world _),inside,keeps⟩

theorem Lawful.kill (kept : law.Kept) (lawful : s.Lawful law config) : s.kill.Lawful law config := by
  unfold Session.kill
  refine Lawful.draw kept ?_ fun _ => kept.still
  split
  case h_1 program resume phase =>
    obtain ⟨before,inside,keeps⟩ := lawful.resumed phase (handed_kill s.world true) lawful.turtle
    exact settleIn_lawful kept lawful.configured program inside keeps
  case h_2 program phase =>
    have loaded : s.phase ≠ .idle := fun same => nomatch phase.symm.trans same
    exact ⟨lawful.configured,lawful.turtle,fun _ => lawful.loaded loaded,fun same => nomatch same⟩
  case h_3 => exact lawful

theorem Lawful.abandon (kept : law.Kept) (lawful : s.Lawful law config) : s.abandon.Lawful law config := by
  unfold Session.abandon
  split
  · exact lawful.kill kept
  · exact lawful

theorem Lawful.resume (kept : law.Kept) (lawful : s.Lawful law config) : s.resume.Lawful law config := by
  unfold Session.resume
  split
  case h_1 program resume phase =>
    split
    · exact lawful
    · obtain ⟨before,inside,keeps⟩ := lawful.resumed phase (.refl s.world) lawful.turtle
      exact settleIn_lawful kept lawful.configured program inside keeps
  case h_2 => exact lawful

section
variable (fresh : ∀ x printed, law.turtle x → law.holds ⟨.initial config,x,printed⟩)
include fresh

theorem Lawful.refresh_holds (lawful : s.Lawful law config) : law.holds s.refresh.world.scene := by
  have holds := fresh s.world.sprite s.world.printed lawful.turtle
  rw [← lawful.configured] at holds
  exact holds

theorem Lawful.compile (kept : law.Kept) (lawful : s.Lawful law config) (source : String) :
    (s.compile source).2.Lawful law config := by
  have stopped := lawful.abandon kept
  have unloaded : s.unload.Lawful law config :=
    ⟨stopped.configured,stopped.turtle,fun loaded => absurd rfl loaded,fun same => nomatch same⟩
  unfold Session.compile
  cases Program.compile source with
  | ok program =>
    have holds := unloaded.refresh_holds fresh
    exact ⟨unloaded.configured,unloaded.turtle,fun _ => ⟨holds,kept.global holds⟩,fun same => nomatch same⟩
  | error diagnostics =>
    exact ⟨unloaded.configured,unloaded.turtle,unloaded.loaded,unloaded.waits⟩

theorem Lawful.run (kept : law.Kept) (lawful : s.Lawful law config) : s.run.Lawful law config := by
  unfold Session.run
  split
  case h_1 => exact lawful
  case h_2 program phase =>
    have loaded : s.phase ≠ .idle := fun same => nomatch phase.symm.trans same
    exact start_lawful kept lawful.configured (lawful.loaded loaded).1 program
  case h_3 => exact lawful.resume kept
  case h_4 program outcome phase =>
    exact start_lawful kept (s := s.refresh) lawful.configured (lawful.refresh_holds fresh) program

theorem Lawful.runLine (kept : law.Kept) (lawful : s.Lawful law config) (source : String) :
    (s.runLine source).Lawful law config := by
  have stopped := lawful.abandon kept
  unfold Session.runLine
  cases Program.compile source with
  | error diagnostics => exact ⟨stopped.configured,stopped.turtle,stopped.loaded,stopped.waits⟩
  | ok program =>
    let silent : Session := { s.abandon with diagnostics := [] }
    have cleared : silent.Lawful law config :=
      ⟨stopped.configured,stopped.turtle,stopped.loaded,stopped.waits⟩
    simp only
    split
    case h_1 =>
      exact start_lawful kept (s := silent.refresh) cleared.configured (cleared.refresh_holds fresh) program
    case h_2 loaded => exact start_lawful kept cleared.configured (cleared.loaded loaded).1 program

theorem Lawful.apply (kept : law.Kept) (lawful : s.Lawful law config) {call : HostCall}
    (respects : call.Respects law) : (s.apply call).Lawful law config := by
  cases call with
  | compile source => exact lawful.compile fresh kept source
  | run => exact lawful.run fresh kept
  | resume => exact lawful.resume kept
  | kill => exact lawful.kill kept
  | runLine source => exact lawful.runLine fresh kept source
  | draw f => exact lawful.draw kept respects

theorem Lawful.calls (kept : law.Kept) (lawful : s.Lawful law config) {calls : List HostCall}
    (respect : ∀ call ∈ calls, call.Respects law) : (calls.foldl Session.apply s).Lawful law config := by
  induction calls generalizing s with
  | nil => exact lawful
  | cons call calls ih =>
    have first := lawful.apply fresh kept (respect call (.head _))
    exact ih first fun other mem => respect other (.tail _ mem)

end

theorem ofConfig_lawful (config : Config) (turtle : law.turtle (.ofConfig config)) :
    (ofConfig config).Lawful law config :=
  ⟨rfl,turtle,fun loaded => absurd rfl loaded,fun same => nomatch same⟩

end Session

end TurtleScript
