import TurtleScript.Proofs.LexicalSessions
import TurtleScript.Proofs.MarkedTrees
import TurtleScript.Proofs.RespannedMachine

/-!
Scoping is lexical in every session. Beside a session stands one whose texts were parsed to marked trees. The two are
always as far, and differ in marks only (`Session.Beside.calls`), since programs never look at spans. In the marked
session every statement and every function bears the depth at which it stands in the tree it was parsed into, and the
scopes around it are as many as that and one more (`scoping_lexical`).
-/

namespace TurtleScript

/-- The sessions are as far as each other, with programs that differ in spans only: neither has started its program, or
both are in a run of it and the machines that they follow are beside each other. The run is the one that the second
session has started last, and the first has started in a lexical store. -/
inductive Session.Abreast (f : Span → Span) (programs : List Program) (last : Option (Program × World))
    (t s : Session) : Prop where
  | idle (left : t.phase = .idle) (right : s.phase = .idle)
  | ready {program : Program} (left : t.phase = .ready program) (right : s.phase = .ready (program.respan f))
  | cancelled {program : Program} (left : t.phase = .finished program .killed)
      (right : s.phase = .finished (program.respan f) .killed)
  | runs {program : Program} {v w : World} {m n : Machine} (left : t.Reached program v m)
      (right : s.Reached (program.respan f) w n) (beside : m.Respans (spansChanged f) n)
      (started : last = some (program.respan f,w)) (lexical : v.store.Lexical (DeclaredIn programs))

structure Session.Beside (f : Span → Span) (programs : List Program) (last : Option (Program × World))
    (t s : Session) : Prop where
  config : s.config = t.config
  worlds : (spansChanged f).Worlds t.world s.world
  abreast : t.Abreast f programs last s

namespace Session

variable {f : Span → Span} {programs : List Program} {last : Option (Program × World)} {t s : Session}

theorem settleIn_beside (config : s.config = t.config) {program : Program} {v w : World} {m n : Machine}
    {run run' : Run Flow} (beside : m.Respans (spansChanged f) n)
    (passed : Machine.Passed t.config (program.machine v) m) (carries : Carries t.config .empty m run)
    (ends : ∀ result x, run.Ends result x → (program.script t.config v).Ends result x)
    (passed' : Machine.Passed s.config ((program.respan f).machine w) n) (carries' : Carries s.config .empty n run')
    (ends' : ∀ result x, run'.Ends result x → ((program.respan f).script s.config w).Ends result x)
    (started : last = some (program.respan f,w)) (lexical : v.store.Lexical (DeclaredIn programs)) :
    (t.settleIn program run).Beside f programs last (s.settleIn (program.respan f) run') := by
  obtain ⟨later,comes,rests,reached,world⟩ := t.settleIn_reached passed carries ends
  obtain ⟨later',comes',rests',reached',world'⟩ := s.settleIn_reached passed' carries' ends'
  rw [config] at comes' rests'
  obtain ⟨other,comesThere,there⟩ := beside.comes comes
  -- Both come to rest, and there is one place for the second to do so.
  have same : other = later' := comesThere.unique comes' (there.rests rests) rests'
  subst same
  refine ⟨?_,?_,.runs reached reached' there started lexical⟩
  · rw [t.settleIn_config,s.settleIn_config,config]
  · have worlds := there.world
    rw [world,world']
    exact ⟨worlds.scenes,worlds.only,worlds.scope,worlds.callDepth,rfl⟩

/-- Sessions in the same phases and the same runs are as far as each other, too. -/
theorem Abreast.kept (abreast : t.Abreast f programs last s) (t' s' : Session) (left : t'.phase = t.phase)
    (right : s'.phase = s.phase) (runs : ∀ {program start m}, t.Reached program start m → t'.Reached program start m)
    (runs' : ∀ {program start m}, s.Reached program start m → s'.Reached program start m) {others : List Program}
    (more : programs ⊆ others) : t'.Abreast f others last s' := by
  cases abreast with
  | idle idle idle' => exact .idle (left.trans idle) (right.trans idle')
  | ready ready ready' => exact .ready (left.trans ready) (right.trans ready')
  | cancelled cancelled cancelled' => exact .cancelled (left.trans cancelled) (right.trans cancelled')
  | runs reached reached' machines started lexical =>
    exact .runs (runs reached) (runs' reached') machines started (lexical.mono more)

namespace Beside

/-- A run goes on beside the other one from worlds that their hosts hand back. -/
theorem resumed (beside : t.Beside f programs last s) {program other : Program} {resume resume' : World → Run Flow}
    (phase : t.phase = .suspended program resume) (phase' : s.phase = .suspended other resume') {v w : World}
    (worlds : (spansChanged f).Worlds v w) (handed : Handed t.world v) (handed' : Handed s.world w)
    (letsGo : v.LetsGo) (letsGo' : w.LetsGo) :
    (t.settleIn program (resume v)).Beside f programs last (s.settleIn other (resume' w)) := by
  cases beside.abreast with
  | idle left => cases left.symm.trans phase
  | ready left => cases left.symm.trans phase
  | cancelled left => cases left.symm.trans phase
  | runs left right machines started lexical =>
    obtain ⟨rfl,passed,carries,ends⟩ := left.resumed phase handed letsGo
    obtain ⟨rfl,passed',carries',ends'⟩ := right.resumed phase' handed' letsGo'
    exact settleIn_beside beside.config (machines.hand worlds) passed carries ends passed' carries' ends' started
      lexical

theorem draw (beside : t.Beside f programs last s) (g : Turtle.Sprite → Turtle.Sprite) :
    (t.draw g).Beside f programs last (s.draw g) := by
  refine ⟨beside.config,beside.worlds.draw g,?_⟩
  exact beside.abreast.kept (t.draw g) (s.draw g) rfl rfl (·.draw g) (·.draw g) (List.Subset.refl _)

theorem diagnosed (beside : t.Beside f programs last s) (left right : List Diagnostic) :
    Beside f programs last { t with diagnostics := left } { s with diagnostics := right } := by
  refine ⟨beside.config,beside.worlds,?_⟩
  exact beside.abreast.kept { t with diagnostics := left } { s with diagnostics := right } rfl rfl (·.diagnosed left)
    (·.diagnosed right) (List.Subset.refl _)

theorem mono (beside : t.Beside f programs last s) {others : List Program} (more : programs ⊆ others) :
    t.Beside f others last s :=
  ⟨beside.config,beside.worlds,beside.abreast.kept t s rfl rfl id id more⟩

theorem phases (beside : t.Beside f programs last s) :
    (t.phase = .idle ∧ s.phase = .idle) ∨
    (∃ program, t.phase = .ready program ∧ s.phase = .ready (program.respan f)) ∨
    (∃ program resume resume', t.phase = .suspended program resume ∧
      s.phase = .suspended (program.respan f) resume') ∨
    ∃ program o o', t.phase = .finished program o ∧ s.phase = .finished (program.respan f) o' := by
  cases beside.abreast with
  | idle left right => exact .inl ⟨left,right⟩
  | ready left right => exact .inr (.inl ⟨_,left,right⟩)
  | cancelled left right => exact .inr (.inr (.inr ⟨_,_,_,left,right⟩))
  | runs left right machines _ _ =>
    cases left with
    | suspended phase =>
      cases right with
      | suspended phase' => exact .inr (.inr (.inl ⟨_,_,_,phase,phase'⟩))
      | finished => cases machines
    | finished phase =>
      cases right with
      | suspended => cases machines
      | finished phase' => exact .inr (.inr (.inr ⟨_,_,_,phase,phase'⟩))

theorem kill (beside : t.Beside f programs last s) : t.kill.Beside f programs last s.kill := by
  unfold Session.kill
  refine draw ?_ _
  have worlds := beside.worlds
  rcases beside.phases with ⟨left,right⟩ | ⟨_,left,right⟩ | ⟨_,_,_,left,right⟩ | ⟨_,_,_,left,right⟩
  · rw [left,right]
    exact beside
  · rw [left,right]
    exact ⟨beside.config,worlds,.cancelled rfl rfl⟩
  · rw [left,right]
    refine beside.resumed left right ?_ (handed_kill _ _) (handed_kill _ _) (.inr rfl) (.inr rfl)
    exact ⟨worlds.scenes,worlds.only,worlds.scope,worlds.callDepth,rfl⟩
  · rw [left,right]
    exact beside

theorem abandon (beside : t.Beside f programs last s) : t.abandon.Beside f programs last s.abandon := by
  unfold Session.abandon
  rcases beside.phases with ⟨left,right⟩ | ⟨_,left,right⟩ | ⟨_,_,_,left,right⟩ | ⟨_,_,_,left,right⟩
  all_goals
    rw [left,right]
  · exact beside
  · exact beside
  · exact beside.kill
  · exact beside

theorem resume (beside : t.Beside f programs last s) : t.resume.Beside f programs last s.resume := by
  unfold Session.resume
  rcases beside.phases with ⟨left,right⟩ | ⟨_,left,right⟩ | ⟨_,_,_,left,right⟩ | ⟨_,_,_,left,right⟩
  · rw [left,right]
    exact beside
  · rw [left,right]
    exact beside
  · rw [left,right]
    have moving : s.gliding = t.gliding := beside.worlds.gliding
    dsimp only
    by_cases goes : (t.gliding && !t.world.monitor.killRequested) = true
    · have goes' := goes
      rw [← moving,← beside.worlds.asked] at goes'
      rw [if_pos goes,if_pos goes']
      exact beside
    · have goes' := goes
      rw [← moving,← beside.worlds.asked] at goes'
      rw [if_neg goes,if_neg goes']
      exact beside.resumed left right beside.worlds (.refl _) (.refl _) (letsGo_of_goes goes) (letsGo_of_goes goes')
  · rw [left,right]
    exact beside

end Beside

end Session

theorem Library.installed_respan (f : Span → Span) {config : Config} {entry : String × Value}
    (installed : entry ∈ Library.installed config) : entry.2.respan f = entry.2 := by
  obtain ⟨name,value⟩ := entry
  cases value with
  | function g =>
    cases g with
    | builtin => rfl
    | declared c =>
      have nowhere : ({ frames := #[] } : Store).Rooted (.function (.declared c)) := rooted_of_installed installed
      exact absurd (nowhere c rfl) (Nat.not_lt_zero _)
  | _ => rfl

theorem Store.initial_respan (f : Span → Span) (config : Config) :
    (Store.initial config).respan f = Store.initial config := by
  have bindings : ((Library.installed config).map fun entry => Binding.mk entry.1 entry.2 true).map (Binding.respan f) =
      (Library.installed config).map fun entry => Binding.mk entry.1 entry.2 true := by
    rw [List.map_map]
    refine List.map_congr_left fun entry installed => ?_
    exact congrArg (Binding.mk entry.1 · true) (Library.installed_respan f installed)
  have arrays : (Store.initial config).arrays = #[] := rfl
  unfold Store.respan
  rw [Store.initial_frames,arrays,Array.map_empty,List.map_toArray]
  simp only [List.map_cons,List.map_nil,Frame.respan,bindings]
  rfl

theorem Store.empty_respan (f : Span → Span) : ({} : Store).respan f = {} := by
  simp [Store.respan,Frame.respan]

namespace Session

variable {f : Span → Span} {programs : List Program} {last : Option (Program × World)} {t s : Session}

namespace Beside

/-- Worlds beside each other with all but the turtle and what is printed made anew. -/
theorem anew (beside : t.Beside f programs last s) {store store' : Store} (same : store' = store.respan f) :
    (spansChanged f).Worlds { sprite := t.world.sprite, printed := t.world.printed, store := store }
      { sprite := s.world.sprite, printed := s.world.printed, store := store' } :=
  ⟨⟨same,beside.worlds.scenes.turtle,beside.worlds.scenes.printed⟩,store.only_all,rfl,rfl,rfl⟩

theorem refreshed (beside : t.Beside f programs last s) : (spansChanged f).Worlds t.refresh.world s.refresh.world := by
  refine beside.anew ?_
  rw [beside.config,Store.initial_respan]

theorem load (beside : t.Beside f programs last s) {change : Program → Program}
    (undone : ∀ program : Program, (change program).respan f = program)
    (compiled : Except (List Diagnostic) Program) (others : List Program) :
    (t.load (compiled.map change)).Beside f others last (s.load compiled) := by
  have stopped := beside.abandon
  cases compiled with
  | ok program =>
    refine ⟨stopped.config,?_,.ready (show _ = Phase.ready (change program) from rfl) ?_⟩
    · refine stopped.anew ?_
      show Store.initial s.abandon.config = (Store.initial t.abandon.config).respan f
      rw [stopped.config,Store.initial_respan]
    · rw [undone]
      rfl
  | error diagnostics => exact ⟨stopped.config,stopped.anew (Store.empty_respan f).symm,.idle rfl rfl⟩

theorem start (beside : t.Beside f programs last s) (lexical : t.world.store.Lexical (DeclaredIn programs))
    {program other : Program} (same : program.respan f = other) :
    (t.start program).Beside f programs (some (other,s.world)) (s.start other) := by
  subst same
  have carried := script_carried s.config (program.respan f) s.world
  exact settleIn_beside beside.config (program.machine_respans beside.worlds) .start (script_carried _ program _)
    (fun _ _ ended => ended) .start carried (fun _ _ ended => ended) rfl lexical

theorem refresh (beside : t.Beside f programs last s) {program other : Program} (same : program.respan f = other) :
    (t.refresh.start program).Beside f programs (some (other,s.refresh.world)) (s.refresh.start other) := by
  have fresh : Beside f programs none { t.refresh with phase := .idle } { s.refresh with phase := .idle } :=
    ⟨beside.config,beside.refreshed,.idle rfl rfl⟩
  exact fresh.start t.refresh_lexical same

theorem run (beside : t.Beside f programs last s) (lexical : t.world.store.Lexical (DeclaredIn programs)) :
    t.run.Beside f programs ((s.starts? .run).or last) s.run := by
  unfold Session.run starts?
  rcases beside.phases with ⟨left,right⟩ | ⟨_,left,right⟩ | ⟨_,_,_,left,right⟩ | ⟨_,_,_,left,right⟩
  · rw [left,right]
    exact beside
  · rw [left,right]
    exact beside.start lexical rfl
  · rw [left,right]
    exact beside.resume
  · rw [left,right]
    exact beside.refresh rfl

theorem follow (beside : t.Beside f programs last s) {config : Config} (lexical : t.Lexical config programs)
    {change : Program → Program} (undone : ∀ program : Program, (change program).respan f = program)
    (source : String) :
    (t.follow ((Program.compile source).map change)).Beside f programs ((s.starts? (.runLine source)).or last)
      (s.follow (Program.compile source)) := by
  have stopped := beside.abandon
  unfold Session.follow starts? lineWorld
  dsimp only
  cases Program.compile source with
  | error diagnostics => exact stopped.diagnosed _ _
  | ok program =>
    have clean := stopped.diagnosed [] []
    have changed : (Except.ok program : Except (List Diagnostic) Program).map change = .ok (change program) := rfl
    rw [changed]
    dsimp only
    rcases stopped.phases with ⟨left,right⟩ | ⟨_,left,right⟩ | ⟨_,_,_,left,right⟩ | ⟨_,_,_,left,right⟩
    · rw [left,right]
      exact clean.refresh (undone program)
    all_goals
      rw [left,right]
      exact clean.start lexical.abandon.store (undone program)

/-- The sessions stay beside each other, if the change of the trees is one that the change of spans undoes. -/
theorem applyWith (beside : t.Beside f programs last s) {config : Config} (lexical : t.Lexical config programs)
    {change : Program → Program} (undone : ∀ program : Program, (change program).respan f = program)
    (call : HostCall) :
    (t.applyWith change call).Beside f (programs ++ call.parsed.map change) ((s.starts? call).or last)
      (s.apply call) := by
  have more : programs ⊆ programs ++ call.parsed.map change := List.subset_append_left _ _
  cases call with
  | compile source =>
    have loaded := beside.load undone (Program.compile source) (programs ++ (HostCall.compile source).parsed.map change)
    rwa [← s.compile_eq source] at loaded
  | run => exact (beside.run lexical.store).mono more
  | resume => exact beside.resume.mono more
  | kill => exact beside.kill.mono more
  | runLine source => exact (beside.follow lexical undone source).mono more
  | draw g => exact (beside.draw g).mono more

theorem calls (beside : t.Beside f programs last s) {config : Config} (lexical : t.Lexical config programs)
    {change : Program → Program} (undone : ∀ program : Program, (change program).respan f = program)
    (calls : List HostCall) :
    (calls.foldl (Session.applyWith change) t).Beside f (programs ++ (calls.flatMap HostCall.parsed).map change)
      ((s.lastStart? calls).or last) (calls.foldl Session.apply s) := by
  induction calls generalizing t s last programs with
  | nil => exact beside.mono (List.subset_append_left _ _)
  | cons call calls ih =>
    have later := ih (beside.applyWith lexical undone call) (lexical.applyWith change call)
    rwa [← Option.or_assoc,List.append_assoc,← List.map_append] at later

end Beside

theorem ofConfig_beside (f : Span → Span) (programs : List Program) (config : Config) :
    (ofConfig config).Beside f programs none (ofConfig config) :=
  ⟨rfl,⟨⟨(Store.empty_respan f).symm,rfl,rfl⟩,Store.only_all _,rfl,rfl,rfl⟩,.idle rfl rfl⟩

theorem Beside.state (beside : t.Beside f programs last s) : s.state = t.state := by
  unfold Session.state
  rcases beside.phases with ⟨left,right⟩ | ⟨_,left,right⟩ | ⟨_,_,_,left,right⟩ | ⟨_,_,_,left,right⟩ <;> rw [left,right]

/-- Where the second session may start a program, the first may start one beside it. -/
theorem Beside.startsIn (beside : t.Beside f programs last s) {w : World} (starts : s.StartsIn w) :
    ∃ v, t.StartsIn v ∧ (spansChanged f).Worlds v w := by
  rcases starts with ⟨loaded,rfl⟩ | rfl
  · exact ⟨t.world,.inl ⟨beside.state ▸ loaded,rfl⟩,beside.worlds⟩
  · exact ⟨t.refresh.world,.inr rfl,beside.refreshed⟩

end Session

/-! ### Depth -/

/-- The scopes of a store are as the programs are written. The store is a marked one without its marks: every scope leads
out to the global one without meeting a scope twice, and a function has as many scopes around it as its name is marked
with, and one more. So many blocks and function bodies are around its declaration in the program it comes from. -/
structure Store.AsWritten (programs : List Program) (store marked : Store) : Prop where
  same : store = marked.respan Span.unmarked
  leads : ∀ id < store.frames.size, (store.chain id).getLast? = some Store.global
  acyclic : ∀ id < store.frames.size, (store.chain id).Nodup
  functions : ∀ c, marked.Holds (.function (.declared c)) → c.scope < store.frames.size ∧
    (store.chain c.scope).length = 1 + c.name.span.mark ∧
    ∃ p ∈ programs, c.name.span.mark < p.nesting ∧
      ∃ span, p.marked.Nests c.name.span.mark (.function c.name c.params c.body span)

/-- The scope in which names are looked up and assigned leads out to the global one, through no more scopes than blocks
and function bodies are inside each other in one of the programs. -/
structure World.NestedAsWritten (programs : List Program) (w : World) : Prop where
  there : w.scope < w.store.frames.size
  leads : (w.store.chain w.scope).getLast? = some Store.global
  bounded : ∃ p ∈ programs, (w.store.chain w.scope).length ≤ 1 + p.nesting

/-- The world is one to execute a marked statement in: its scope leads out to the global one, and has as many others
around it as the statement is marked with. So many blocks and function bodies are around it where it stands. -/
structure World.AtDepthOf (programs : List Program) (w : World) (s : Stmt) : Prop where
  leads : (w.store.chain w.scope).getLast? = some Store.global
  depth : (w.store.chain w.scope).length = 1 + s.mark
  stands : ∃ p ∈ programs, p.marked.Nests s.mark s

/-- The statement in front of which a machine is at a checkpoint, about to pass it or held up by the turtle. -/
def Machine.statement? : Machine → Option Stmt
  | .doing (.stmt s) _ _ => some s
  | .waiting (.inside s) _ _ => some s
  | _ => none

/-- The loop at whose checkpoint a machine is, in front of another round. -/
def Machine.round? : Machine → Option (Expr × Stmt)
  | .doing (.between test body _) _ _ => some (test,body)
  | .waiting (.rounds test body _) _ _ => some (test,body)
  | _ => none

/-- A machine beside a marked one is as the programs are written: its store is, names are looked up through no more
scopes than blocks and function bodies are nested, and the statement or loop at whose checkpoint it is, which bears its
mark in the other machine, is in a scope as deep as this mark says. A loop has the mark of its body. -/
structure Machine.AsWritten (programs : List Program) (m marked : Machine) : Prop where
  same : marked.Respans (spansChanged Span.unmarked) m
  store : m.world.store.AsWritten programs marked.world.store
  scope : m.world.NestedAsWritten programs
  statement : ∀ s, m.statement? = some s →
    ∃ t, marked.statement? = some t ∧ t.respan Span.unmarked = s ∧ m.world.AtDepthOf programs t
  round : ∀ test body, m.round? = some (test,body) → ∃ test' body', marked.round? = some (test',body') ∧
    test'.respan Span.unmarked = test ∧ body'.respan Span.unmarked = body ∧
    ∃ span, span.mark = body'.mark ∧ m.world.AtDepthOf programs (.loop test' body' span)

section
variable {program : Program} {earlier programs : List Program} {w v : World} {m n : Machine}

theorem declared_marked {d : Nat} {s : Stmt} (nests : Nests (DeclaredIn (programs.map Program.marked)) d s) :
    ∃ p ∈ programs, p.marked.Nests d s := by
  obtain ⟨_,mem,inside⟩ := nests_of_declared nests
  obtain ⟨p,listed,rfl⟩ := List.mem_map.mp mem
  exact ⟨p,listed,inside⟩

theorem reachable_marked {d : Nat} {s : Stmt}
    (nests : Nests (Reachable program.marked (earlier.map Program.marked)) d s) :
    ∃ p ∈ earlier ++ [program], p.marked.Nests d s := by
  obtain ⟨_,mem,inside⟩ := nests_of_reachable nests
  rw [← List.map_singleton,← List.map_append] at mem
  obtain ⟨p,listed,rfl⟩ := List.mem_map.mp mem
  exact ⟨p,listed,inside⟩

theorem Store.Lexical.asWritten {store : Store} (lexical : store.Lexical (DeclaredIn (programs.map Program.marked))) :
    (store.respan Span.unmarked).AsWritten programs store := by
  have chains : ∀ id, (store.respan Span.unmarked).chain id = store.chain id := Store.chain_respan _ store
  have frames : (store.respan Span.unmarked).frames.size = store.frames.size := store.frames.size_map
  refine ⟨rfl,fun id there => ?_,fun id there => ?_,fun c held => ?_⟩
  · rw [chains]
    exact lexical.scopes.chain_last id (frames ▸ there)
  · rw [chains]
    exact lexical.scopes.chain_nodup (frames ▸ there)
  · obtain ⟨d,span,nests,deep⟩ := lexical.held _ held c rfl
    obtain ⟨p,listed,inside⟩ := declared_marked nests
    have marked : c.name.span.mark = d := inside.name_mark
    have within : d < p.nesting := inside.unmarked.lt_nesting trivial
    rw [chains,frames,marked]
    exact ⟨deep.there,deep.length,p,listed,within,span,inside⟩

theorem chain_unmarked (worlds : (spansChanged Span.unmarked).Worlds w v) :
    v.store.chain v.scope = w.store.chain w.scope := by
  rw [worlds.store,worlds.scope]
  exact Store.chain_respan _ w.store w.scope

theorem World.Lexical.atDepth {d : Nat} {s : Stmt}
    (lexical : w.Lexical (Reachable program.marked (earlier.map Program.marked)))
    (nests : Nests (Reachable program.marked (earlier.map Program.marked)) d s) (deep : w.store.Deep w.scope d)
    (worlds : (spansChanged Span.unmarked).Worlds w v) : v.AtDepthOf (earlier ++ [program]) s := by
  obtain ⟨p,listed,inside⟩ := reachable_marked nests
  have marked : s.mark = d := inside.mark
  refine ⟨?_,?_,p,listed,?_⟩
  · rw [chain_unmarked worlds]
    exact lexical.store.scopes.chain_last _ deep.there
  · rw [chain_unmarked worlds,marked]
    exact deep.length
  · rw [marked]
    exact inside

theorem World.Lexical.nested (lexical : w.Lexical (Reachable program.marked (earlier.map Program.marked)))
    (worlds : (spansChanged Span.unmarked).Worlds w v) : v.NestedAsWritten (earlier ++ [program]) := by
  have frames : v.store.frames.size = w.store.frames.size := by
    rw [worlds.store]
    exact w.store.frames.size_map
  have bounded : ∃ p ∈ earlier ++ [program], ∃ d ≤ p.nesting, w.store.Deep w.scope d := by
    rcases lexical.inside with outermost | ⟨d,s,nests,opens,deep⟩
    · exact ⟨program,List.mem_append_right _ (.head _),0,Nat.zero_le _,outermost⟩
    · obtain ⟨p,listed,there⟩ := reachable_marked nests
      have opens' : (s.respan Span.unmarked).Opens := by
        cases s <;> exact opens
      exact ⟨p,listed,d + 1,there.unmarked.lt_nesting opens',deep⟩
  obtain ⟨p,listed,d,within,deep⟩ := bounded
  refine ⟨?_,?_,p,listed,?_⟩
  · rw [frames,worlds.scope]
    exact deep.there
  · rw [chain_unmarked worlds]
    exact lexical.store.scopes.chain_last _ deep.there
  · rw [chain_unmarked worlds,deep.length]
    exact Nat.add_le_add_left within 1

theorem Machine.Respans.statement? (beside : m.Respans (spansChanged Span.unmarked) n) :
    n.statement? = m.statement?.map (Stmt.respan Span.unmarked) := by
  cases beside with
  | doing here _ _ => cases here <;> rfl
  | waiting here _ _ => cases here <;> rfl
  | giving => rfl

theorem Machine.Respans.round? (beside : m.Respans (spansChanged Span.unmarked) n) :
    n.round? = m.round?.map (Prod.map (Expr.respan Span.unmarked) (Stmt.respan Span.unmarked)) := by
  cases beside with
  | doing here _ _ => cases here <;> rfl
  | waiting here _ _ => cases here <;> rfl
  | giving => rfl

theorem Machine.Lexical.statement (lexical : m.Lexical (Reachable program.marked (earlier.map Program.marked)))
    {s : Stmt} (checks : m.statement? = some s) : ∃ d,
      Nests (Reachable program.marked (earlier.map Program.marked)) d s ∧ m.world.store.Deep m.world.scope d := by
  unfold Machine.statement? at checks
  split at checks
  case h_1 =>
    cases checks
    cases lexical with
    | doing _ here _ => exact here.stands
  case h_2 =>
    cases checks
    cases lexical with
    | waiting _ _ here _ => exact here.stands
  case h_3 => cases checks

theorem Machine.Lexical.round (lexical : m.Lexical (Reachable program.marked (earlier.map Program.marked)))
    {test : Expr} {body : Stmt} (checks : m.round? = some (test,body)) : ∃ d span,
      Nests (Reachable program.marked (earlier.map Program.marked)) d (.loop test body span) ∧
      m.world.store.Deep m.world.scope d := by
  unfold Machine.round? at checks
  split at checks
  case h_1 =>
    cases checks
    cases lexical with
    | doing _ here _ => exact here.stands
  case h_2 =>
    cases checks
    cases lexical with
    | waiting _ _ here _ => exact here.stands
  case h_3 => cases checks

/-- Beside lexical machines whose programs bear marks, machines are as their programs are written. -/
theorem Machine.Lexical.asWritten (lexical : m.Lexical (Reachable program.marked (earlier.map Program.marked)))
    (beside : m.Respans (spansChanged Span.unmarked) n) : n.AsWritten (earlier ++ [program]) m := by
  have world := lexical.world_lexical
  refine ⟨beside,?_,world.nested beside.world,fun s checks => ?_,fun test body checks => ?_⟩
  · have left := world.store.finish
    rw [← List.map_singleton,← List.map_append] at left
    rw [beside.world.store]
    exact left.asWritten
  · rw [beside.statement?] at checks
    obtain ⟨t,there,same⟩ := Option.map_eq_some_iff.mp checks
    obtain ⟨d,nests,deep⟩ := lexical.statement there
    exact ⟨t,there,same,world.atDepth nests deep beside.world⟩
  · rw [beside.round?] at checks
    obtain ⟨⟨test',body'⟩,there,same⟩ := Option.map_eq_some_iff.mp checks
    cases same
    obtain ⟨d,span,nests,deep⟩ := lexical.round there
    obtain ⟨p,_,inside⟩ := reachable_marked nests
    have marked : span.mark = body'.mark := inside.mark.trans inside.body_mark.symm
    exact ⟨test',body',there,rfl,rfl,span,marked,world.atDepth nests deep beside.world⟩

end

theorem Machine.AsWritten.mono {programs more : List Program} {marked m : Machine}
    (written : m.AsWritten programs marked) (subset : programs ⊆ more) : m.AsWritten more marked := by
  have stands : ∀ {s}, m.world.AtDepthOf programs s → m.world.AtDepthOf more s := by
    rintro s ⟨leads,depth,p,listed,nests⟩
    exact ⟨leads,depth,p,subset listed,nests⟩
  obtain ⟨same,store,scope,statement,round⟩ := written
  refine ⟨same,⟨store.same,store.leads,store.acyclic,fun c held => ?_⟩,?_,fun s checks => ?_,fun test body checks => ?_⟩
  · obtain ⟨there,length,p,listed,rest⟩ := store.functions c held
    exact ⟨there,length,p,subset listed,rest⟩
  · obtain ⟨there,leads,p,listed,bounded⟩ := scope
    exact ⟨there,leads,p,subset listed,bounded⟩
  · obtain ⟨t,there,unmarked,deep⟩ := statement s checks
    exact ⟨t,there,unmarked,stands deep⟩
  · obtain ⟨test',body',there,sameTest,sameBody,span,marked,deep⟩ := round test body checks
    exact ⟨test',body',there,sameTest,sameBody,span,marked,stands deep⟩

/-- A machine is at a checkpoint where one beside it waits: that of a statement or that of a loop. -/
theorem Code.Paused.checkpoint {α : Type} {code code' : Code α} {kind : α → α → Prop} (paused : code.Paused)
    {p : Pairing} (here : code.Respans p code' kind) (rest : Stack α) (w : World) :
    (Machine.waiting code' rest w).statement?.isSome ∨ (Machine.waiting code' rest w).round?.isSome := by
  cases here with
  | inside s => exact .inl rfl
  | rounds test body begun => exact .inr rfl
  | _ => exact paused.elim

/-- A session that waits is held up at a checkpoint of the run it has started last, as the programs are written. -/
theorem Session.Beside.waits {config : Config} {parsed : List Program} {last : Option (Program × World)} {t s : Session}
    (beside : t.Beside Span.unmarked (parsed.map Program.marked) last s)
    (lexical : t.Lexical config (parsed.map Program.marked)) (waits : s.state = .suspended) :
    ∃ (program : Program) (w : World) (n : Machine), last = some (program,w) ∧ s.Reached program w n ∧
      (n.statement?.isSome ∨ n.round?.isSome) ∧ ∃ m : Machine, n.AsWritten parsed m := by
  unfold Session.state at waits
  cases beside.abreast with
  | idle _ right =>
    rw [right] at waits
    cases waits
  | ready _ right =>
    rw [right] at waits
    cases waits
  | cancelled _ right =>
    rw [right] at waits
    cases waits
  | @runs marked v w m n left right machines started store =>
    obtain ⟨p,listed,rfl⟩ := List.mem_map.mp (lexical.program marked (Session.Runs.program ⟨m,left⟩))
    have more : parsed ++ [p] ⊆ parsed := by
      intro other mem
      rcases List.mem_append.mp mem with old | new
      · exact old
      · rw [List.mem_singleton.mp new]
        exact listed
    cases left with
    | suspended _ passed =>
      have there := passed.lexical (Program.machine_reaches store p.marked)
      refine ⟨_,w,n,started,right,?_,_,(there.asWritten machines).mono more⟩
      cases there with
      | waiting paused _ _ _ =>
        cases machines with
        | waiting here _ _ => exact paused.checkpoint here _ _
    | finished =>
      cases right with
      | suspended => cases machines
      | finished phase =>
        rw [phase] at waits
        cases waits

/-- Scoping is lexical in depth, whatever a host does to a session and in whatever order. Beside the session stands one
that was made by the same calls but for marks: each of its texts was parsed to a tree in which every statement and every
declared name bears the number of blocks and function bodies around it. But for the marks the two are the same, and the
scopes of the session are as the programs parsed so far are written: a function has as many scopes around it as its name
is marked with, and one more. Where the session waits, it is held up at a checkpoint of the run that it has started last,
in front of a statement or of another round of a loop. This state, and every state that a run of any program in the
session passes through, which the machine of the program carries out, is as written, too: names are looked up through no
more scopes than blocks and function bodies are nested, and whatever statement or loop is at its checkpoint is executed
in a scope with as many others around it as it is marked with in the same state of the marked run. -/
theorem scoping_lexical (config : Config) (calls : List HostCall) :
    let s := calls.foldl Session.apply (.ofConfig config)
    let t := calls.foldl (Session.applyWith Program.marked) (.ofConfig config)
    let parsed := calls.flatMap HostCall.parsed
    s.world.store.AsWritten parsed t.world.store ∧
    (s.state = .suspended → ∃ (program : Program) (w : World) (n : Machine),
      (Session.ofConfig config).lastStart? calls = some (program,w) ∧ s.Reached program w n ∧
      (n.statement?.isSome ∨ n.round?.isSome) ∧ ∃ m : Machine, n.AsWritten parsed m) ∧
    ∀ w, s.StartsIn w → ∃ v, t.StartsIn v ∧ (spansChanged Span.unmarked).Worlds v w ∧
      ∀ (source : String) (program : Program), Program.compile source = .ok program →
        Carries config .empty (program.machine w) (program.script config w) ∧
        ∀ n, Machine.Passed config (program.machine w) n →
          ∃ m, Machine.Passed config (program.marked.machine v) m ∧ n.AsWritten (parsed ++ [program]) m := by
  intro s t parsed
  have fresh := Session.ofConfig_lexical config
  have lexical : t.Lexical config (parsed.map Program.marked) := fresh.calls Program.marked calls
  have beside : t.Beside Span.unmarked (parsed.map Program.marked) _ s :=
    (Session.ofConfig_beside Span.unmarked [] config).calls fresh Program.unmarked_marked calls
  rw [Option.or_none] at beside
  refine ⟨?_,beside.waits lexical,fun w starts => ?_⟩
  · rw [beside.worlds.store]
    exact lexical.store.asWritten
  · obtain ⟨v,starts',worlds⟩ := beside.startsIn starts
    refine ⟨v,starts',worlds,fun source program _ => ⟨script_carried config program w,fun n passed => ?_⟩⟩
    have store : v.store.Lexical (DeclaredIn (parsed.map Program.marked)) := by
      rcases starts' with ⟨_,rfl⟩ | rfl
      · exact lexical.store
      · exact t.refresh_lexical
    have start := program.marked.machine_respans worlds
    rw [program.unmarked_marked] at start
    obtain ⟨m,passed',there⟩ := passed.respans start
    exact ⟨m,passed',(passed'.lexical (Program.machine_reaches store program.marked)).asWritten there⟩

/-- A program that waits in a block at the end of a recursion, behind a function with an equal one in it. -/
def countdown : String :=
  "function f() \x7b\x7d \x7b function f() \x7b\x7d \x7d " ++
    "function down(n) \x7b if (n < 1) \x7b setPos(n, n); print(n); \x7d else down(n - 1); \x7d down(3);"

/-- How many scopes are around the functions of a name, and what their own names are marked with. -/
def Store.functionsNamed (store : Store) (name : String) : List (Nat × Nat) :=
  store.frames.toList.flatMap fun frame => frame.bindings.filterMap fun binding =>
    match binding.value with
    | .function (.declared c) =>
      if c.name.text = name then some ((store.chain c.scope).length,c.name.span.mark) else none
    | _ => none

/-- Four calls deep it waits in a scope with two others around it, and begins in the global one. The two functions are
equal, but declared at different depths. -/
theorem scoping_lexical_countdown :
    let calls := [HostCall.compile countdown,.run]
    let s := calls.foldl Session.apply (.ofConfig {})
    let t := calls.foldl (Session.applyWith Program.marked) (.ofConfig {})
    let parsed := calls.flatMap HostCall.parsed
    (s.state = .suspended ∧ s.world.callDepth = 4 ∧ (s.world.store.chain s.world.scope).length = 3) ∧
      t.world.store.functionsNamed "f" = [(1,0),(2,1)] ∧
      s.world.store.AsWritten parsed t.world.store ∧
      (∃ (program : Program) (w : World) (n : Machine),
        (Session.ofConfig {}).lastStart? calls = some (program,w) ∧ s.Reached program w n ∧
        (n.statement?.isSome ∨ n.round?.isSome) ∧ ∃ m : Machine, n.AsWritten parsed m) ∧
      ∃ program, Program.compile countdown = .ok program ∧ ∃ n m : Machine,
        Machine.Passed {} (program.machine s.world) n ∧ n.statement?.isSome ∧ n.AsWritten (parsed ++ [program]) m := by
  intro calls s t parsed
  have facts : s.state = .suspended ∧ s.world.callDepth = 4 ∧ (s.world.store.chain s.world.scope).length = 3 := by
    decide +kernel
  have functions : t.world.store.functionsNamed "f" = [(1,0),(2,1)] := by decide +kernel
  obtain ⟨written,waits,runs⟩ := scoping_lexical {} calls
  have starts : s.StartsIn s.world := .inl ⟨fun idle => (nomatch facts.1.symm.trans idle),rfl⟩
  obtain ⟨program,compiles⟩ := Program.compiled_of_isOk countdown (by decide +kernel)
  have some_statement : ∀ program ∈ (Program.compile countdown).toOption, program.statements ≠ [] := by decide +kernel
  obtain ⟨stmt,later,first⟩ := List.exists_cons_of_ne_nil (some_statement program (by rw [compiles]; rfl))
  obtain ⟨n,stepped,arrives⟩ : ∃ n, (program.machine s.world).step {} = some n ∧ n.statement?.isSome := by
    rw [Program.machine,first]
    exact ⟨_,rfl,rfl⟩
  obtain ⟨v,_,_,there⟩ := runs s.world starts
  have passed : Machine.Passed {} (program.machine s.world) n := .step .start stepped
  obtain ⟨m,_,same⟩ := (there countdown program compiles).2 n passed
  exact ⟨facts,functions,written,waits facts.1,program,compiles,n,m,passed,arrives,same⟩

end TurtleScript
