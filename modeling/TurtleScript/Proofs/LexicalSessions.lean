import TurtleScript.Proofs.LexicalMachine

/-!
Lexical sessions. A session that has started a program follows the machine of that program: it waits where the machine
waits and has ended as the machine has (`Session.Reached`), whatever its host does meanwhile. Which run it is in follows
from the calls of its host (`Session.lastStart?`, `Session.Since.calls`). Its store is lexical, with the functions of all
programs that were parsed so far in it (`Session.Lexical`), also if the trees are changed once they are parsed
(`Session.Lexical.applyWith`).
-/

namespace TurtleScript

/-- The session has started a program in a world, and is where the machine of the program has got to: suspended, and it
goes on as the machine does from any world its host hands back, or at an end. -/
inductive Session.Reached (program : Program) (start : World) (s : Session) : Machine → Prop where
  | suspended {α : Type} {code : Code α} {rest : Stack α} {u : World} {resume : World → Run Flow}
      (phase : s.phase = .suspended program resume)
      (passed : Machine.Passed s.config (program.machine start) (.waiting code rest u))
      (gliding : u.sprite.gliding = true) (unasked : u.monitor.killRequested = false) (handed : Handed u s.world)
      (resumes : ∀ v, Handed u v → v.LetsGo → Carries s.config .empty (.waiting code rest v) (resume v))
      (ends : ∀ v, Handed u v → ∀ result x, (resume v).Ends result x → (program.script s.config start).Ends result x) :
      Reached program start s (.waiting code rest u)
  | finished {result : Except Interruption Flow} {v : World} (phase : s.phase = .finished program (.ofResult result))
      (passed : Machine.Passed s.config (program.machine start) (.giving result .empty v))
      (ended : (program.script s.config start).Ends result v) (store : s.world.store = v.store) :
      Reached program start s (.giving result .empty v)

/-- The session is in a run of the program, started in a world. -/
def Session.Runs (program : Program) (start : World) (s : Session) : Prop := ∃ m, s.Reached program start m

/-- The world in which a session goes on: nobody has asked it to stop. -/
def World.unasked (w : World) : World := { w with monitor := { w.monitor with killRequested := false } }

namespace Session

variable {s : Session} {program : Program} {start : World}

theorem settleIn_reached (s : Session) {m : Machine} {run : Run Flow}
    (passed : Machine.Passed s.config (program.machine start) m) (carries : Carries s.config .empty m run)
    (ends : ∀ result x, run.Ends result x → (program.script s.config start).Ends result x) :
    ∃ later, m.Comes s.config later ∧ later.step s.config = none ∧
      (s.settleIn program run).Reached program start later ∧ (s.settleIn program run).world = later.world.unasked := by
  cases carries with
  | done comes => exact ⟨_,comes,rfl,.finished rfl (passed.comes comes) (ends _ _ (.done _ _)) rfl,rfl⟩
  | @waiting _ _ code inner u resume comes gliding unasked resumes =>
    have rests : Machine.Suspended (.waiting code inner u) := ⟨gliding,unasked⟩
    refine ⟨.waiting code inner u,comes,rests.rests s.config,?_,?_⟩
    · refine .suspended rfl (passed.comes comes) gliding unasked (.refl _) resumes fun v handed result x ended => ?_
      exact ends result x (.waiting handed ended)
    · show u = u.unasked
      unfold World.unasked
      rw [← unasked]

theorem settleIn_runs (s : Session) {m : Machine} {run : Run Flow}
    (passed : Machine.Passed s.config (program.machine start) m) (carries : Carries s.config .empty m run)
    (ends : ∀ result x, run.Ends result x → (program.script s.config start).Ends result x) :
    (s.settleIn program run).Runs program start := by
  obtain ⟨later,_,_,reached,_⟩ := s.settleIn_reached passed carries ends
  exact ⟨later,reached⟩

theorem start_runs (s : Session) (program : Program) : (s.start program).Runs program s.world :=
  s.settleIn_runs .start (script_carried s.config program s.world) fun _ _ ended => ended

/-- In any world that its host has made of the one it waits in, a session goes on as the machine does. -/
theorem Reached.resumed {m : Machine} (reached : s.Reached program start m) {other : Program}
    {resume : World → Run Flow} (phase : s.phase = .suspended other resume) {v : World} (handed : Handed s.world v)
    (letsGo : v.LetsGo) :
    other = program ∧ Machine.Passed s.config (program.machine start) (m.hand v) ∧
      Carries s.config .empty (m.hand v) (resume v) ∧
      ∀ result x, (resume v).Ends result x → (program.script s.config start).Ends result x := by
  cases reached with
  | @suspended _ code rest u _ here passed gliding unasked before resumes ends =>
    cases here.symm.trans phase
    have waits : Machine.Suspended (.waiting code rest u) := ⟨gliding,unasked⟩
    exact ⟨rfl,passed.handed waits (before.trans handed),resumes v (before.trans handed) letsGo,
      ends v (before.trans handed)⟩
  | finished here => cases here.symm.trans phase

theorem Runs.resumed (runs : s.Runs program start) {other : Program} {resume : World → Run Flow}
    (phase : s.phase = .suspended other resume) {v : World} (handed : Handed s.world v) (letsGo : v.LetsGo) :
    (s.settleIn other (resume v)).Runs program start := by
  obtain ⟨m,reached⟩ := runs
  obtain ⟨rfl,passed,carries,ends⟩ := reached.resumed phase handed letsGo
  exact s.settleIn_runs passed carries ends

theorem Reached.draw {m : Machine} (reached : s.Reached program start m) (f : Turtle.Sprite → Turtle.Sprite) :
    (s.draw f).Reached program start m := by
  cases reached with
  | suspended phase passed gliding unasked handed resumes ends =>
    exact .suspended phase passed gliding unasked (handed.trans (handed_sprite s.world _)) resumes ends
  | finished phase passed ended store => exact .finished phase passed ended store

theorem Runs.draw (runs : s.Runs program start) (f : Turtle.Sprite → Turtle.Sprite) :
    (s.draw f).Runs program start := by
  obtain ⟨m,reached⟩ := runs
  exact ⟨m,reached.draw f⟩

theorem Reached.diagnosed {m : Machine} (reached : s.Reached program start m) (diagnostics : List Diagnostic) :
    { s with diagnostics := diagnostics }.Reached program start m := by
  cases reached with
  | suspended phase passed gliding unasked handed resumes ends =>
    exact .suspended phase passed gliding unasked handed resumes ends
  | finished phase passed ended store => exact .finished phase passed ended store

theorem letsGo_of_goes (goes : ¬ (s.gliding && !s.world.monitor.killRequested) = true) : s.world.LetsGo := by
  cases still : s.world.sprite.gliding with
  | false => exact .inl still
  | true =>
    refine .inr (Bool.of_not_eq_false fun unasked => goes ?_)
    show (s.world.sprite.gliding && !s.world.monitor.killRequested) = true
    rw [still,unasked]
    rfl

theorem Runs.resume (runs : s.Runs program start) : s.resume.Runs program start := by
  unfold Session.resume
  split
  case h_1 other resume phase =>
    split
    · exact runs
    case isFalse goes => exact runs.resumed phase (.refl s.world) (letsGo_of_goes goes)
  case h_2 => exact runs

theorem Runs.kill (runs : s.Runs program start) : s.kill.Runs program start := by
  unfold Session.kill
  refine Runs.draw ?_ _
  split
  case h_1 other resume phase => exact runs.resumed phase (handed_kill s.world true) (.inr rfl)
  case h_2 other phase =>
    obtain ⟨m,reached⟩ := runs
    cases reached with
    | suspended here => cases here.symm.trans phase
    | finished here => cases here.symm.trans phase
  case h_3 => exact runs

theorem Runs.store (runs : s.Runs program start) :
    ∃ m, Machine.Passed s.config (program.machine start) m ∧ s.world.store = m.world.store := by
  obtain ⟨m,reached⟩ := runs
  cases reached with
  | suspended _ passed _ _ handed => exact ⟨_,passed,handed.store⟩
  | finished _ passed _ store => exact ⟨_,passed,store⟩

end Session

/-- The world in which a session starts the program of a line. -/
def Session.lineWorld (s : Session) : World :=
  match s.abandon.phase with
  | .idle => s.abandon.refresh.world
  | _ => s.abandon.world

/-- The program that a call of the host starts in a session, if it starts one, and the world it is started in. -/
def Session.starts? (s : Session) : HostCall → Option (Program × World)
  | .run =>
    match s.phase with
    | .ready program => some (program,s.world)
    | .finished program _ => some (program,s.refresh.world)
    | _ => none
  | .runLine source => (Program.compile source).toOption.map (·,s.lineWorld)
  | _ => none

/-- What was started last in some calls of the host. -/
def Session.lastStart? (s : Session) : List HostCall → Option (Program × World)
  | [] => none
  | call :: calls => ((s.apply call).lastStart? calls).or (s.starts? call)

/-- A session that waits or has failed is in the run that was started last. -/
inductive Session.Since (last : Option (Program × World)) (s : Session) : Prop where
  | calm (stopped : s.state ≠ .suspended) (fine : s.failure? = none)
  | runs {program : Program} {start : World} (started : last = some (program,start)) (runs : s.Runs program start)

namespace Session

variable {s : Session} {last : Option (Program × World)}

theorem Since.resume (since : s.Since last) : s.resume.Since last := by
  cases since with
  | runs started runs => exact .runs started runs.resume
  | calm stopped fine =>
    have still : s.resume = s := by
      unfold state at stopped
      unfold Session.resume
      split
      case h_1 phase =>
        rw [phase] at stopped
        exact absurd rfl stopped
      case h_2 => rfl
    rw [still]
    exact .calm stopped fine

theorem Since.kill (since : s.Since last) : s.kill.Since last := by
  cases since with
  | runs started runs => exact .runs started runs.kill
  | calm stopped fine =>
    unfold Session.kill
    unfold state at stopped
    split
    case h_1 phase =>
      rw [phase] at stopped
      exact absurd rfl stopped
    case h_2 => exact .calm nofun rfl
    case h_3 => exact .calm stopped fine

theorem Since.abandon (since : s.Since last) : s.abandon.Since last := by
  unfold Session.abandon
  split
  · exact since.kill
  · exact since

theorem Since.draw (since : s.Since last) (f : Turtle.Sprite → Turtle.Sprite) : (s.draw f).Since last := by
  cases since with
  | runs started runs => exact .runs started (runs.draw f)
  | calm stopped fine => exact .calm stopped fine

theorem Since.diagnosed (since : s.Since last) (diagnostics : List Diagnostic) :
    { s with diagnostics := diagnostics }.Since last := by
  cases since with
  | calm stopped fine => exact .calm stopped fine
  | runs started runs =>
    obtain ⟨m,reached⟩ := runs
    exact .runs started ⟨m,reached.diagnosed diagnostics⟩

theorem compile_since (s : Session) (source : String) (last : Option (Program × World)) :
    (s.compile source).2.Since last := by
  unfold Session.compile
  split
  · exact .calm nofun rfl
  · exact .calm nofun rfl

theorem Since.apply (since : s.Since last) (call : HostCall) : (s.apply call).Since ((s.starts? call).or last) := by
  cases call with
  | compile source => exact s.compile_since source _
  | resume => exact since.resume
  | kill => exact since.kill
  | draw f => exact since.draw f
  | run =>
    show s.run.Since ((s.starts? .run).or last)
    unfold Session.run starts?
    cases phase : s.phase with
    | idle => exact since
    | ready program => exact .runs rfl (s.start_runs program)
    | suspended program resume => exact since.resume
    | finished program outcome => exact .runs rfl (s.refresh.start_runs program)
  | runLine source =>
    show (s.runLine source).Since ((s.starts? (.runLine source)).or last)
    unfold Session.runLine starts? lineWorld
    dsimp only
    cases Program.compile source with
    | error diagnostics => exact since.abandon.diagnosed diagnostics
    | ok program =>
      dsimp only
      cases phase : s.abandon.phase with
      | idle => exact .runs rfl (Session.start_runs (Session.refresh { s.abandon with diagnostics := [] }) program)
      | _ => exact .runs rfl (Session.start_runs { s.abandon with diagnostics := [] } program)

theorem Since.calls (since : s.Since last) (calls : List HostCall) :
    (calls.foldl Session.apply s).Since ((s.lastStart? calls).or last) := by
  induction calls generalizing s last with
  | nil => exact since
  | cons call calls ih =>
    have later := ih (since.apply call)
    rwa [← Option.or_assoc] at later

end Session

/-! ### Programs one after the other -/

/-- The functions of some programs, each where it is declared. -/
def DeclaredIn (programs : List Program) (d : Nat) (s : Stmt) : Prop :=
  (∃ name params body span, s = .function name params body span) ∧ ∃ p ∈ programs, p.Nests d s

/-- Where a run of a program begins, and what it may find in its store: functions of earlier programs. -/
def Reachable (program : Program) (earlier : List Program) (d : Nat) (s : Stmt) : Prop :=
  (d = 0 ∧ s ∈ program.statements) ∨ DeclaredIn earlier d s

section
variable {programs earlier : List Program} {program : Program} {d : Nat} {s : Stmt} {store : Store}

theorem nests_of_programs (nests : Nests (fun d s => ∃ p ∈ programs, p.Nests d s) d s) :
    ∃ p ∈ programs, p.Nests d s := by
  induction nests with
  | root root => exact root
  | block _ mem ih =>
    obtain ⟨p,listed,nests⟩ := ih
    exact ⟨p,listed,.block nests mem⟩
  | body _ mem ih =>
    obtain ⟨p,listed,nests⟩ := ih
    exact ⟨p,listed,.body nests mem⟩
  | yes _ ih =>
    obtain ⟨p,listed,nests⟩ := ih
    exact ⟨p,listed,.yes nests⟩
  | no _ ih =>
    obtain ⟨p,listed,nests⟩ := ih
    exact ⟨p,listed,.no nests⟩
  | loop _ ih =>
    obtain ⟨p,listed,nests⟩ := ih
    exact ⟨p,listed,.loop nests⟩

theorem nests_of_declared (nests : Nests (DeclaredIn programs) d s) : ∃ p ∈ programs, p.Nests d s :=
  nests_of_programs (nests.trans fun _ _ declared => .root declared.2)

theorem nests_of_reachable (nests : Nests (Reachable program earlier) d s) :
    ∃ p ∈ earlier ++ [program], p.Nests d s := by
  refine nests_of_programs (nests.trans fun _ _ root => .root ?_)
  rcases root with top | ⟨_,p,mem,inside⟩
  · exact ⟨program,List.mem_append_right _ (.head _),.root top⟩
  · exact ⟨p,List.mem_append_left _ mem,inside⟩

/-- What earlier programs have left in the store is what a program may find there. -/
theorem Store.Lexical.begin (lexical : store.Lexical (DeclaredIn earlier)) (program : Program) :
    store.Lexical (Reachable program earlier) :=
  lexical.trans fun nests => nests.trans fun _ _ declared => .root (.inr declared)

theorem Store.Lexical.finish (lexical : store.Lexical (Reachable program earlier)) :
    store.Lexical (DeclaredIn (earlier ++ [program])) := by
  refine lexical.trans fun {d name params body span} nests => .root ⟨⟨name,params,body,span,rfl⟩,?_⟩
  exact nests_of_reachable nests

theorem Store.Lexical.mono (lexical : store.Lexical (DeclaredIn earlier)) (more : earlier ⊆ programs) :
    store.Lexical (DeclaredIn programs) := by
  refine lexical.trans fun nests => nests.trans fun _ _ declared => .root ?_
  obtain ⟨isFunction,p,mem,inside⟩ := declared
  exact ⟨isFunction,p,more mem,inside⟩

theorem Program.machine_reaches {w : World} (lexical : w.store.Lexical (DeclaredIn earlier)) (program : Program) :
    (program.machine w).Lexical (Reachable program earlier) :=
  Program.machine_lexical (lexical.begin program) fun _ mem => .inl ⟨rfl,mem⟩

end

namespace Session

/-- The session after a text was compiled for it, with what that came to. -/
def load (s : Session) : Except (List Diagnostic) Program → Session
  | .ok program => { s.unload.refresh with phase := .ready program }
  | .error diagnostics => { s.unload with diagnostics := diagnostics }

theorem compile_eq (s : Session) (source : String) : (s.compile source).2 = s.load (Program.compile source) := by
  unfold compile load
  cases Program.compile source <;> rfl

/-- The session after a line was entered, with what compiling it came to. -/
def follow (s : Session) (compiled : Except (List Diagnostic) Program) : Session :=
  let s := s.abandon
  match compiled with
  | .error diagnostics => { s with diagnostics := diagnostics }
  | .ok program =>
    let s := { s with diagnostics := [] }
    match s.phase with
    | .idle => s.refresh.start program
    | _ => s.start program

theorem runLine_follow (s : Session) (source : String) : s.runLine source = s.follow (Program.compile source) := rfl

/-- The session after a call of its host, if the trees of texts are changed once they are parsed. -/
def applyWith (change : Program → Program) (s : Session) : HostCall → Session
  | .compile source => s.load ((Program.compile source).map change)
  | .runLine source => s.follow ((Program.compile source).map change)
  | call => s.apply call

theorem applyWith_id (s : Session) (call : HostCall) : s.applyWith id call = s.apply call := by
  cases call with
  | compile source => exact (congrArg s.load (congrFun Except.map_id _)).trans (s.compile_eq source).symm
  | runLine source => exact (congrArg s.follow (congrFun Except.map_id _)).trans (s.runLine_follow source).symm
  | _ => rfl

end Session

/-- A session with a configuration, whose store is lexical and whose run has started in a lexical store. -/
structure Session.Lexical (config : Config) (parsed : List Program) (s : Session) : Prop where
  configured : s.config = config
  store : s.world.store.Lexical (DeclaredIn parsed)
  program : ∀ program, s.program? = some program → program ∈ parsed
  waits : ∀ {program : Program} {resume : World → Run Flow}, s.phase = .suspended program resume →
    ∃ start : World, start.store.Lexical (DeclaredIn parsed) ∧ s.Runs program start

/-- The programs that a call of the host parses. -/
def HostCall.parsed : HostCall → List Program
  | .compile source | .runLine source => (Program.compile source).toOption.toList
  | _ => []

namespace Session

variable {s : Session} {config : Config} {parsed : List Program}

theorem ofConfig_lexical (config : Config) : (ofConfig config).Lexical config [] :=
  ⟨rfl,Store.empty_lexical,nofun,fun same => nomatch same⟩

theorem Lexical.mono {programs : List Program} (lexical : s.Lexical config parsed) (more : parsed ⊆ programs) :
    s.Lexical config programs where
  configured := lexical.configured
  store := lexical.store.mono more
  program program held := more (lexical.program program held)
  waits phase := by
    obtain ⟨start,store,runs⟩ := lexical.waits phase
    exact ⟨start,store.mono more,runs⟩

theorem Runs.program {program : Program} {start : World} (runs : s.Runs program start) : s.program? = some program := by
  obtain ⟨m,reached⟩ := runs
  cases reached with
  | suspended phase => rw [program?,phase]
  | finished phase => rw [program?,phase]

/-- A session in a run of a parsed program that has started in a lexical store is lexical. -/
theorem Runs.lexical {program : Program} {start : World} (runs : s.Runs program start) (configured : s.config = config)
    (store : start.store.Lexical (DeclaredIn parsed)) (listed : program ∈ parsed) : s.Lexical config parsed where
  configured := configured
  store := by
    obtain ⟨m,passed,same⟩ := runs.store
    have lexical := (passed.lexical (Program.machine_reaches store program)).world_lexical.store
    rw [same]
    refine lexical.finish.mono fun p mem => ?_
    rcases List.mem_append.mp mem with old | new
    · exact old
    · rw [List.mem_singleton.mp new]
      exact listed
  program other held := by
    cases runs.program.symm.trans held
    exact listed
  waits := by
    intro other resume phase
    have same : s.program? = some other := by rw [program?,phase]
    cases runs.program.symm.trans same
    exact ⟨start,store,runs⟩

theorem start_lexical {program : Program} (configured : s.config = config)
    (store : s.world.store.Lexical (DeclaredIn parsed)) (listed : program ∈ parsed) :
    (s.start program).Lexical config parsed := by
  have same : (s.start program).config = s.config := by
    unfold start settleIn
    split <;> rfl
  exact (s.start_runs program).lexical (same.trans configured) store listed

theorem Lexical.draw (lexical : s.Lexical config parsed) (f : Turtle.Sprite → Turtle.Sprite) :
    (s.draw f).Lexical config parsed where
  configured := lexical.configured
  store := lexical.store
  program := lexical.program
  waits phase := by
    obtain ⟨start,store,runs⟩ := lexical.waits phase
    exact ⟨start,store,runs.draw f⟩

theorem settleIn_config (s : Session) (program : Program) (run : Run Flow) :
    (s.settleIn program run).config = s.config := by
  cases run <;> rfl

/-- A run that waits keeps the session lexical in any world that its host has made and lets it go on in. -/
theorem Lexical.resumed (lexical : s.Lexical config parsed) {program : Program} {resume : World → Run Flow}
    (phase : s.phase = .suspended program resume) {v : World} (handed : Handed s.world v) (letsGo : v.LetsGo) :
    (s.settleIn program (resume v)).Lexical config parsed := by
  obtain ⟨start,store,runs⟩ := lexical.waits phase
  have listed : program ∈ parsed := lexical.program program (by rw [program?,phase])
  refine (runs.resumed phase handed letsGo).lexical ?_ store listed
  exact (s.settleIn_config _ _).trans lexical.configured

theorem Lexical.kill (lexical : s.Lexical config parsed) : s.kill.Lexical config parsed := by
  unfold Session.kill
  refine Lexical.draw ?_ _
  split
  case h_1 program resume phase => exact lexical.resumed phase (handed_kill s.world true) (.inr rfl)
  case h_2 program phase =>
    refine ⟨lexical.configured,lexical.store,fun other held => ?_,fun same => nomatch same⟩
    cases held
    exact lexical.program program (by rw [program?,phase])
  case h_3 => exact lexical

theorem Lexical.abandon (lexical : s.Lexical config parsed) : s.abandon.Lexical config parsed := by
  unfold Session.abandon
  split
  · exact lexical.kill
  · exact lexical

theorem Lexical.resume (lexical : s.Lexical config parsed) : s.resume.Lexical config parsed := by
  unfold Session.resume
  split
  case h_1 program resume phase =>
    split
    · exact lexical
    case isFalse goes => exact lexical.resumed phase (.refl s.world) (letsGo_of_goes goes)
  case h_2 => exact lexical

theorem refresh_lexical (s : Session) : s.refresh.world.store.Lexical (DeclaredIn parsed) :=
  Store.initial_lexical s.config

theorem Lexical.run (lexical : s.Lexical config parsed) : s.run.Lexical config parsed := by
  unfold Session.run
  split
  case h_1 => exact lexical
  case h_2 program phase =>
    exact start_lexical lexical.configured lexical.store (lexical.program program (by rw [program?,phase]))
  case h_3 => exact lexical.resume
  case h_4 program outcome phase =>
    have listed : program ∈ parsed := lexical.program program (by rw [program?,phase])
    exact start_lexical (s := s.refresh) lexical.configured s.refresh_lexical listed

theorem Lexical.load (lexical : s.Lexical config parsed) (compiled : Except (List Diagnostic) Program) :
    (s.load compiled).Lexical config (parsed ++ compiled.toOption.toList) := by
  have stopped := lexical.abandon
  unfold Session.load
  cases compiled with
  | ok program =>
    refine ⟨stopped.configured,s.unload.refresh_lexical,fun other held => ?_,fun same => nomatch same⟩
    cases held
    exact List.mem_append_right _ (.head _)
  | error diagnostics => exact ⟨stopped.configured,Store.empty_lexical,nofun,fun same => nomatch same⟩

theorem Lexical.diagnosed (lexical : s.Lexical config parsed) (diagnostics : List Diagnostic) :
    { s with diagnostics := diagnostics }.Lexical config parsed := by
  refine ⟨lexical.configured,lexical.store,lexical.program,fun phase => ?_⟩
  obtain ⟨start,store,m,reached⟩ := lexical.waits phase
  exact ⟨start,store,m,reached.diagnosed diagnostics⟩

theorem Lexical.follow (lexical : s.Lexical config parsed) (compiled : Except (List Diagnostic) Program) :
    (s.follow compiled).Lexical config (parsed ++ compiled.toOption.toList) := by
  have stopped := lexical.abandon
  unfold Session.follow
  cases compiled with
  | error diagnostics => exact (stopped.diagnosed diagnostics).mono (List.subset_append_left _ _)
  | ok program =>
    have listed : program ∈ parsed ++ [program] := List.mem_append_right _ (.head _)
    have silent := (stopped.diagnosed []).mono (List.subset_append_left _ [program])
    dsimp only
    split
    case h_1 => exact start_lexical (s := Session.refresh _) silent.configured (Session.refresh_lexical _) listed
    case h_2 => exact start_lexical silent.configured silent.store listed

/-- A session is lexical after any call of its host, also if trees are changed once they are parsed. -/
theorem Lexical.applyWith (lexical : s.Lexical config parsed) (change : Program → Program) (call : HostCall) :
    (s.applyWith change call).Lexical config (parsed ++ call.parsed.map change) := by
  have same : parsed ⊆ parsed ++ [] := List.subset_append_left _ _
  have listed : ∀ compiled : Except (List Diagnostic) Program,
      (compiled.map change).toOption.toList = compiled.toOption.toList.map change := by
    intro compiled
    cases compiled <;> rfl
  cases call with
  | compile source =>
    have loaded := lexical.load ((Program.compile source).map change)
    rwa [listed] at loaded
  | runLine source =>
    have followed := lexical.follow ((Program.compile source).map change)
    rwa [listed] at followed
  | run => exact lexical.run.mono same
  | resume => exact lexical.resume.mono same
  | kill => exact lexical.kill.mono same
  | draw f => exact (lexical.draw f).mono same

theorem Lexical.calls (lexical : s.Lexical config parsed) (change : Program → Program) (calls : List HostCall) :
    (calls.foldl (Session.applyWith change) s).Lexical config (parsed ++ (calls.flatMap HostCall.parsed).map change) := by
  induction calls generalizing s parsed with
  | nil => exact lexical.mono (List.subset_append_left _ _)
  | cons call calls ih =>
    have rest := ih (lexical.applyWith change call)
    rwa [List.append_assoc,← List.map_append] at rest

end Session

end TurtleScript
