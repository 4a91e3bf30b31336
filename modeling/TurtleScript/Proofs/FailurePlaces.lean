import TurtleScript.Proofs.FailureReports
import TurtleScript.Proofs.LexicalSessions
import TurtleScript.Proofs.Limits

/-!
Where failures are. A fault arises without a place, and on its way out of the program it takes the first one it comes
by: that of the innermost expression, statement or name that was being dealt with (`Machine.Passed.explained`). There is
always one, since every statement gives its own to what has none (`script_placed`). In a session that has compiled a
program it is a place in the text of that program (`failure_located`). In a conversation a function may fail that was
declared on an earlier line, and then it is a place in that line, whatever line has called the function
(`lines_failure_located`, `failure_elsewhere`).
-/

namespace TurtleScript

/-- The place of what a machine has begun and not yet ended, if it is an expression, a statement or a name. -/
def Rest.place? {α β : Type} : Rest α β → Option Span
  | .located span => some span
  | _ => none

/-- The places of all expressions, statements and names that are being dealt with, the innermost one first. -/
def Stack.places : {α : Type} → Stack α → List Span
  | _, .empty => []
  | _, .push rest r => r.place?.toList ++ rest.places

namespace Machine

def Interrupted : Machine → Prop
  | .giving (.error _) _ _ => True
  | _ => False

def Unplaced : Machine → Prop
  | .giving (.error (.failed failure)) _ _ => failure.span = none
  | _ => True

/-- The machine has got here from a fault, which arose in a step of the run while expressions, statements and names at
the places were being dealt with. -/
def Arose (config : Config) (start : Machine) (fault : Fault) (places : List Span) (m : Machine) : Prop :=
  ∃ (origin : Machine) (α : Type) (rest : Stack α) (w : World), Passed config start origin ∧ ¬ origin.Interrupted ∧
    origin.step config = some (.fail fault rest w) ∧ rest.places = places ∧ (fail fault rest w).Comes config m

/-- A failure on its way out has a fault that arose in the run, and either is still inside of all that was being dealt
with then, or has the innermost of these places. -/
def Explained (config : Config) (start : Machine) : Machine → Prop
  | .giving (.error (.failed failure)) rest w =>
    ∃ places, Arose config start failure.fault places (.giving (.error (.failed failure)) rest w) ∧
      match failure.span with
      | none => rest.places = places
      | some span => places.head? = some span
  | _ => True

variable {config : Config} {α β : Type} {w : World}

theorem unplaced_act (action : Action α) (rest : Stack α) : (act action rest w).Unplaced := by
  unfold act
  split
  · exact trivial
  · exact rfl

theorem unplaced_ite {c : Prop} [Decidable c] {yes no : Machine} (holds : yes.Unplaced) (fails : no.Unplaced) :
    (if c then yes else no).Unplaced := by
  split
  · exact holds
  · exact fails

theorem unplaced_pause (code : Code α) (rest : Stack α) : (pause code rest w).Unplaced :=
  unplaced_ite trivial (unplaced_ite trivial trivial)

theorem unplaced_option (e : Option Expr) (rest : Stack Value) : (option e rest w).Unplaced := by
  cases e <;> exact trivial

end Machine

section
variable {config : Config} {α β : Type} {w : World}

open Machine in
theorem Code.step_unplaced (code : Code α) (rest : Stack α) : (code.step config rest w).Unplaced := by
  cases code with
  | expr e =>
    cases e with
    | var name span => exact unplaced_act _ _
    | _ => exact trivial
  | exprs es => cases es <;> exact trivial
  | stmt s => exact unplaced_pause _ _
  | inside s =>
    cases s with
    | var name initial span => exact unplaced_option _ _
    | giveBack value span => exact unplaced_option _ _
    | _ => exact trivial
  | stmts index ss => cases ss <;> exact trivial
  | rounds test body begun => exact trivial
  | between test body begun => exact unplaced_pause _ _
  | call c args => exact unplaced_ite rfl (unplaced_act _ _)
  | params scope bindings =>
    match bindings with
    | [] => exact trivial
    | (name,a) :: bindings => exact unplaced_act _ _
  | text pieces written =>
    match pieces with
    | [] => exact trivial
    | .text more :: pieces => exact trivial
    | .value depth a :: pieces =>
      cases a with
      | array id => exact unplaced_ite trivial trivial
      | _ => exact trivial

open Machine in
theorem Function.begin_unplaced (f : Function) (args : List Value) (rest : Stack Value) :
    (f.begin args rest w).Unplaced := by
  unfold Function.begin
  split
  · exact rfl
  · split
    · exact trivial
    · exact trivial
    · exact unplaced_act _ _
    · exact trivial

open Machine in
theorem Rest.take_unplaced (r : Rest α β) (a : α) (rest : Stack β) : (r.take config a rest w).Unplaced := by
  cases r with
  | assign name => exact unplaced_act _ _
  | unary op => exact unplaced_act _ _
  | right op left => exact unplaced_act _ _
  | decider op e => exact unplaced_ite trivial trivial
  | callee e args => cases a <;> first | exact trivial | exact rfl
  | arguments f => exact f.begin_unplaced a rest
  | items => exact unplaced_act (Action.renew (·.newArray a)) rest
  | position target => exact unplaced_act _ _
  | initial name => exact unplaced_act _ _
  | test yes no =>
    refine unplaced_ite trivial ?_
    cases no <;> exact trivial
  | next index ss => cases a <;> exact trivial
  | condition e s begun => exact unplaced_ite (unplaced_ite rfl trivial) trivial
  | round e s begun => cases a <;> exact trivial
  | body => cases a <;> exact trivial
  | printed => exact unplaced_act (do Action.print a; return Value.null) rest
  | _ => exact trivial

namespace Machine

theorem step_unplaced {m later : Machine} (calm : ¬ m.Interrupted) (stepped : m.step config = some later) :
    later.Unplaced := by
  cases m with
  | doing code rest w =>
    cases stepped
    exact code.step_unplaced rest
  | waiting code rest w =>
    rw [step] at stepped
    split at stepped
    · cases stepped
      exact trivial
    · split at stepped
      · cases stepped
      · cases stepped
        exact trivial
  | giving result rest w =>
    cases result with
    | error e => exact absurd trivial calm
    | ok a =>
      cases rest with
      | empty => cases stepped
      | push rest r =>
        cases stepped
        exact r.take_unplaced a rest

/-- A machine in which no interruption is on its way steps to one that is explained. -/
theorem explained_of_calm {start m later : Machine} (passed : Passed config start m) (calm : ¬ m.Interrupted)
    (stepped : m.step config = some later) : Explained config start later := by
  have unplaced := step_unplaced calm stepped
  cases later with
  | doing => exact trivial
  | waiting => exact trivial
  | giving result rest w =>
    cases result with
    | ok a => exact trivial
    | error e =>
      cases e with
      | killed => exact trivial
      | failed failure =>
        obtain ⟨fault,span⟩ := failure
        cases (show span = none from unplaced)
        exact ⟨rest.places,⟨m,_,rest,w,passed,calm,stepped,rfl,.refl _⟩,rfl⟩

/-- A failure that goes one thing further out takes the place of that thing, if it has none. -/
theorem Explained.drop {start : Machine} {failure : Failure} {rest : Stack β} {r : Rest α β}
    (explained : Explained config start (.giving (.error (.failed failure)) (rest.push r) w)) :
    Explained config start (r.drop (.failed failure) rest w) := by
  obtain ⟨places,⟨origin,γ,first,u,passed,calm,stepped,same,comes⟩,known⟩ := explained
  have further : Comes config (.giving (.error (.failed failure)) (rest.push r) w) (r.drop (.failed failure) rest w) :=
    .of_step rfl
  have arose : Arose config start failure.fault places (r.drop (.failed failure) rest w) :=
    ⟨origin,γ,first,u,passed,calm,stepped,same,comes.trans further⟩
  obtain ⟨fault,span⟩ := failure
  cases r with
  | located place =>
    refine ⟨places,arose,?_⟩
    cases span with
    | none =>
      show places.head? = some place
      rw [← show place :: rest.places = places from known]
      rfl
    | some span => exact known
  | _ => exact ⟨places,arose,known⟩

/-- Whatever failure is in a state that a run passes through, it is explained by a step of the run. -/
theorem Passed.explained {start m : Machine} (calm : ¬ start.Interrupted) (passed : Passed config start m) :
    Explained config start m := by
  induction passed with
  | start =>
    cases start with
    | giving result rest w =>
      cases result with
      | ok a => exact trivial
      | error e => exact absurd trivial calm
    | _ => exact trivial
  | @step m later passed stepped ih =>
    cases m with
    | doing code rest w => exact explained_of_calm passed nofun stepped
    | waiting code rest w => exact explained_of_calm passed nofun stepped
    | giving result rest w =>
      cases result with
      | ok a => exact explained_of_calm passed nofun stepped
      | error e =>
        cases rest with
        | empty => cases stepped
        | push rest r =>
          cases stepped
          cases e with
          | failed failure => exact ih.drop
          | killed => cases r <;> exact trivial
  | @handed m v _ suspended _ ih =>
    cases m with
    | waiting code rest w => exact trivial
    | doing => exact suspended.elim
    | giving => exact suspended.elim

end Machine

end

/-! ### A place for every failure -/

/-- All failures in which the run can end have a place. -/
def Run.Placed {α : Type} (run : Run α) : Prop :=
  ∀ failure v, run.Ends (.error (.failed failure)) v → ∃ span, failure.span = some span

namespace Script

variable {α β : Type} {config : Config} {invoke : Invoke}

theorem placed_locate (span : Span) (m : Script α) (w : World) : (locate span m w).Placed := by
  intro failure v ended
  obtain ⟨inner,_,same⟩ := (Run.ends_locate span (m w) _ v).mp ended
  cases inner with
  | ok a => cases same
  | error e =>
    cases e with
    | killed => cases same
    | failed before =>
      cases same
      exact ⟨_,before.locate_span span⟩

theorem placed_bind {m : Script α} {f : α → Script β} {w : World} (first : (m w).Placed)
    (second : ∀ a v, (f a v).Placed) : ((m >>= f) w).Placed := by
  intro failure v ended
  rcases (Run.ends_andThen (m w) f _ v).mp ended with ⟨a,u,_,later⟩ | ⟨e,same,failed⟩
  · exact second a u failure v later
  · cases same
    exact first failure v failed

theorem placed_pure (a : α) (w : World) : ((pure a : Script α) w).Placed :=
  fun _ _ ended => nomatch (Run.ends_done.mp ended).1

theorem placed_checkpoint (w : World) : (checkpoint w).Placed := by
  intro failure v ended
  cases checkpoint_killed ended

theorem placed_exec (s : Stmt) (w : World) : (s.exec config invoke w).Placed := by
  cases s <;> exact placed_bind (placed_checkpoint w) fun _ v => placed_locate _ _ v

theorem placed_execAll (ss : List Stmt) : ∀ index w, (Stmt.execAll config invoke index ss w).Placed := by
  induction ss with
  | nil => exact fun _ w => placed_pure _ w
  | cons s ss ih =>
    intro index w
    refine placed_bind (fun _ _ ended => nomatch (Run.ends_done.mp ended).1) fun _ v => ?_
    refine placed_bind (placed_exec s v) fun flow u => ?_
    cases flow with
    | next => exact ih (index + 1) u
    | returned a => exact placed_pure _ u

end Script

theorem script_placed (config : Config) (program : Program) (w : World) : (program.script config w).Placed := by
  intro failure v ended
  obtain ⟨u,inside,_⟩ := (Run.ends_atEnd _ _ _ v).mp ended
  obtain ⟨x,body,_⟩ := (Run.ends_atEnd _ _ _ u).mp inside
  exact Script.placed_execAll program.statements 0 _ failure x body

section
variable {s : Session} {program : Program} {start : World} {failure : Failure} {earlier : List Program}

theorem spanOf_reachable {span : Span} (inside : SpanOf (Reachable program earlier) span) :
    span ∈ program.spans ∨ ∃ p ∈ earlier, ∃ d name params body whole,
      p.Nests d (.function name params body whole) ∧ span ∈ (Stmt.function name params body whole).spans := by
  obtain ⟨d,s,⟨_,mem⟩ | ⟨⟨name,params,body,whole,rfl⟩,p,listed,nests⟩,there⟩ := inside
  · exact .inl (Stmt.mem_spansAll.mpr ⟨s,mem,there⟩)
  · exact .inr ⟨p,listed,d,name,params,body,whole,nests,there⟩

theorem Program.Nests.mem_spans {d : Nat} {inner : Stmt} (nests : program.Nests d inner) {span : Span}
    (there : span ∈ inner.spans) : span ∈ program.spans := by
  obtain ⟨_,s,⟨_,mem⟩,inside⟩ := Nests.spanned nests span there
  exact Stmt.mem_spansAll.mpr ⟨s,mem,inside⟩

/-- The run of the program ended with the failure, whose fault arose while the innermost of all that was being dealt
with was at the place. -/
def Program.FailsAt (config : Config) (program : Program) (start : World) (failure : Failure) (span : Span) : Prop :=
  ∃ v places, (program.script config start).Ends (.error (.failed failure)) v ∧ places.head? = some span ∧
    Machine.Arose config (program.machine start) failure.fault places (.giving (.error (.failed failure)) .empty v)

theorem Session.Runs.failed (runs : s.Runs program start) (store : start.store.Lexical (DeclaredIn earlier))
    (failed : s.failure? = some failure) :
    ∃ span, failure.span = some span ∧ SpanOf (Reachable program earlier) span ∧
      program.FailsAt s.config start failure span := by
  obtain ⟨_,reached⟩ := runs
  cases reached with
  | suspended phase =>
    unfold failure? outcome? at failed
    rw [phase] at failed
    cases failed
  | @finished result v phase passed ended same =>
    have outcome : result = .error (.failed failure) := by
      unfold failure? outcome? at failed
      rw [phase] at failed
      rcases result with (failure | _) | flow <;> cases failed
      rfl
    subst outcome
    obtain ⟨span,known⟩ := script_placed s.config program start failure v ended
    refine ⟨span,known,?_,?_⟩
    · cases passed.lexical (Program.machine_reaches store program) with
      | failed _ placed _ => exact placed failure rfl span known
    · have calm : ¬ (program.machine start).Interrupted := not_false
      obtain ⟨places,arose,innermost⟩ := passed.explained calm
      rw [known] at innermost
      exact ⟨v,places,ended,innermost,arose⟩

end

/-- A call of the host that lets the program of the session be as it is. -/
def HostCall.Plays : HostCall → Prop
  | .compile _ | .runLine _ => False
  | _ => True

/-- A session has compiled a program, and runs it in a store with nothing but the library to begin with. -/
inductive Session.Plays (program : Program) (config : Config) (s : Session) : Prop where
  | ready (configured : s.config = config) (phase : s.phase = .ready program)
      (store : s.world.store = .initial config)
  | cancelled (configured : s.config = config) (phase : s.phase = .finished program .killed)
  | runs {start : World} (configured : s.config = config) (runs : s.Runs program start)
      (store : start.store = .initial config)

namespace Session

variable {s : Session} {program : Program} {config : Config}

theorem Plays.configured (plays : s.Plays program config) : s.config = config := by
  cases plays with
  | ready configured => exact configured
  | cancelled configured => exact configured
  | runs configured => exact configured

theorem resume_config (s : Session) : s.resume.config = s.config := by
  unfold Session.resume
  split
  · split
    · rfl
    · exact s.settleIn_config _ _
  · rfl

theorem kill_config (s : Session) : s.kill.config = s.config := by
  unfold Session.kill
  split
  · exact s.settleIn_config _ _
  · rfl
  · rfl

theorem start_plays (configured : s.config = config) (store : s.world.store = .initial config) :
    (s.start program).Plays program config :=
  .runs ((s.settleIn_config program _).trans configured) (s.start_runs program) store

theorem compile_plays (s : Session) {source : String} (compiles : Program.compile source = .ok program) :
    (s.compile source).2.Plays program s.config := by
  obtain ⟨phase,configured,scene⟩ := s.compile_ready compiles
  exact .ready configured phase (congrArg Scene.store scene)

theorem Plays.draw (plays : s.Plays program config) (f : Turtle.Sprite → Turtle.Sprite) :
    (s.draw f).Plays program config := by
  cases plays with
  | ready configured phase store => exact .ready configured phase store
  | cancelled configured phase => exact .cancelled configured phase
  | runs configured runs store => exact .runs configured (runs.draw f) store

theorem Plays.resume (plays : s.Plays program config) : s.resume.Plays program config := by
  cases plays with
  | runs configured runs store => exact .runs (s.resume_config.trans configured) runs.resume store
  | ready configured phase store =>
    have still : s.resume = s := by
      unfold Session.resume
      rw [phase]
    rw [still]
    exact .ready configured phase store
  | cancelled configured phase =>
    have still : s.resume = s := by
      unfold Session.resume
      rw [phase]
    rw [still]
    exact .cancelled configured phase

theorem Plays.kill (plays : s.Plays program config) : s.kill.Plays program config := by
  cases plays with
  | runs configured runs store => exact .runs (s.kill_config.trans configured) runs.kill store
  | ready configured phase store =>
    refine .cancelled (s.kill_config.trans configured) ?_
    unfold Session.kill
    rw [phase]
    rfl
  | cancelled configured phase =>
    refine .cancelled (s.kill_config.trans configured) ?_
    unfold Session.kill
    rw [phase]
    exact phase

theorem Plays.run (plays : s.Plays program config) : s.run.Plays program config := by
  have again : s.config = config → (s.refresh.start program).Plays program config :=
    fun configured => start_plays (s := s.refresh) configured (congrArg Store.initial configured)
  cases plays with
  | ready configured phase store =>
    unfold Session.run
    rw [phase]
    exact start_plays configured store
  | cancelled configured phase =>
    unfold Session.run
    rw [phase]
    exact again configured
  | runs configured runs store =>
    have here := runs
    obtain ⟨m,reached⟩ := runs
    unfold Session.run
    cases reached with
    | suspended phase =>
      rw [phase]
      exact Plays.resume (.runs configured here store)
    | finished phase =>
      rw [phase]
      exact again configured

theorem Plays.apply (plays : s.Plays program config) {call : HostCall} (keeps : call.Plays) :
    (s.apply call).Plays program config := by
  cases call with
  | compile source => exact keeps.elim
  | runLine source => exact keeps.elim
  | run => exact plays.run
  | resume => exact plays.resume
  | kill => exact plays.kill
  | draw f => exact plays.draw f

/-- Whatever is started then is the program, in a store with nothing but the library. -/
theorem Plays.starts (plays : s.Plays program config) {call : HostCall} (keeps : call.Plays) {other : Program}
    {start : World} (started : s.starts? call = some (other,start)) :
    other = program ∧ start.store = .initial config := by
  have again : s.config = config → s.refresh.world.store = .initial config :=
    fun configured => congrArg Store.initial configured
  cases call with
  | run =>
    unfold starts? at started
    cases plays with
    | ready configured phase store =>
      rw [phase] at started
      cases started
      exact ⟨rfl,store⟩
    | cancelled configured phase =>
      rw [phase] at started
      cases started
      exact ⟨rfl,again configured⟩
    | runs configured runs store =>
      obtain ⟨m,reached⟩ := runs
      cases reached with
      | suspended phase =>
        rw [phase] at started
        cases started
      | finished phase =>
        rw [phase] at started
        cases started
        exact ⟨rfl,again configured⟩
  | compile => exact keeps.elim
  | runLine => exact keeps.elim
  | _ => cases started

theorem Plays.lastStart (plays : s.Plays program config) {calls : List HostCall} (keep : ∀ call ∈ calls, call.Plays)
    {other : Program} {start : World} (started : s.lastStart? calls = some (other,start)) :
    other = program ∧ start.store = .initial config := by
  induction calls generalizing s with
  | nil => cases started
  | cons call calls ih =>
    rw [lastStart?,Option.or_eq_some_iff] at started
    rcases started with later | ⟨_,here⟩
    · exact ih (plays.apply (keep call (.head _))) (fun other mem => keep other (.tail _ mem)) later
    · exact plays.starts (keep call (.head _)) here

theorem Plays.calls (plays : s.Plays program config) {calls : List HostCall} (keep : ∀ call ∈ calls, call.Plays) :
    (calls.foldl Session.apply s).Plays program config := by
  induction calls generalizing s with
  | nil => exact plays
  | cons call calls ih => exact ih (plays.apply (keep call (.head _))) fun other mem => keep other (.tail _ mem)

end Session

/-- Failures of a compiled program are located in it, whatever was in the session before and whatever its host does
while the program runs, its runs from the beginning again included. The place of a failure is that of an expression, a
statement, a declared name or a parameter of the program and lies in its text. The run that failed is the one that was
started last; it began with nothing but the library, and of all that was being dealt with in it when the fault arose the
place is the innermost. -/
theorem failure_located (s : Session) {source : String} {program : Program}
    (compiles : Program.compile source = .ok program) {calls : List HostCall} (plays : ∀ call ∈ calls, call.Plays)
    {failure : Failure} (failed : (calls.foldl Session.apply (s.compile source).2).failure? = some failure) :
    ∃ span, failure.span = some span ∧ span ∈ program.spans ∧ span.PlacedIn source ∧
      ∃ start : World, (s.compile source).2.lastStart? calls = some (program,start) ∧
        start.store = .initial s.config ∧ program.FailsAt s.config start failure span := by
  have compiled := s.compile_plays compiles
  have configured := (compiled.calls plays).configured
  have since := (s.compile_since source none).calls calls
  rw [Option.or_none] at since
  cases since with
  | calm _ fine => cases failed.symm.trans fine
  | @runs other start started runs =>
    obtain ⟨rfl,store⟩ := compiled.lastStart plays started
    have lexical : start.store.Lexical (DeclaredIn []) := store ▸ Store.initial_lexical s.config
    obtain ⟨span,known,inside,fails⟩ := runs.failed lexical failed
    have own : span ∈ other.spans := by
      rcases spanOf_reachable inside with own | ⟨p,mem,_⟩
      · exact own
      · cases mem
    exact ⟨span,known,own,spans_placed compiles span own,start,started,store,configured ▸ fails⟩

/-- A program that fails in the body of a function, after a wait. -/
def failingBody : String := "function f(a) \x7b setPos(a, a); return a + missing; \x7d print(f(1));"

theorem failure_located_failingBody :
    let failure : Failure := ⟨.undefinedVariable "missing",some ⟨41,48,1⟩⟩
    let still := HostCall.draw (·.stopGlide)
    let s := [HostCall.run,still,.resume].foldl Session.apply ((Session.ofConfig {}).compile failingBody).2
    s.failure? = some failure ∧ ∃ program, Program.compile failingBody = .ok program ∧
      ∃ span, failure.span = some span ∧ span ∈ program.spans ∧ span.PlacedIn failingBody ∧
        ∃ start, ((Session.ofConfig {}).compile failingBody).2.lastStart? [HostCall.run,still,.resume] =
          some (program,start) := by
  intro failure still s
  obtain ⟨program,compiles⟩ := Program.compiled_of_isOk failingBody (by decide +kernel)
  have failed : s.failure? = some failure := by decide +kernel
  have plays : ∀ call ∈ [HostCall.run,still,.resume], call.Plays := by
    rintro _ (_ | ⟨_,_ | ⟨_,_ | ⟨_,_⟩⟩⟩) <;> trivial
  obtain ⟨span,known,inside,placed,start,started,_⟩ := failure_located (.ofConfig {}) compiles plays failed
  exact ⟨failed,program,compiles,span,known,inside,placed,start,started⟩

/-! ### Failures of conversations -/

def parsedLines (lines : List String) : List Program :=
  lines.flatMap fun line => (Program.compile line).toOption.toList

theorem mem_parsedLines {lines : List String} {p : Program} :
    p ∈ parsedLines lines ↔ ∃ line ∈ lines, Program.compile line = .ok p := by
  unfold parsedLines
  rw [List.mem_flatMap]
  refine exists_congr fun line => and_congr_right fun _ => ?_
  cases Program.compile line with
  | error problems => exact ⟨nofun,nofun⟩
  | ok q =>
    constructor
    · intro mem
      rw [List.mem_singleton.mp mem]
    · intro same
      cases same
      exact .head _

/-- The failure of a line, the last one that compiles, has a place: one in that line, or in a function that is declared
in an earlier one. -/
structure FailsAmong (before : List String) (line : String) (after : List String) (failure : Failure) : Prop where
  refused : ∀ later ∈ after, (Program.compile later).isOk = false
  placed : ∃ program, Program.compile line = .ok program ∧ ∃ span, failure.span = some span ∧
    (span ∈ program.spans ∧ span.PlacedIn line ∨
      ∃ earlier ∈ before, ∃ p, Program.compile earlier = .ok p ∧ span.PlacedIn earlier ∧
        ∃ d name params body whole, p.Nests d (.function name params body whole) ∧
          span ∈ (Stmt.function name params body whole).spans)

/-- A conversation after some lines. -/
structure Session.Told (config : Config) (lines : List String) (s : Session) : Prop where
  sound : s.Sound
  lexical : s.Lexical config (parsedLines lines)
  failure : ∀ failure, s.failure? = some failure →
    ∃ before line after, lines = before ++ line :: after ∧ FailsAmong before line after failure

namespace Simulation

variable {sim : Simulation} {program : Program} {start : World} {config : Config} {lines : List String}

/-- What holds however the turtle moves and the run goes on holds while time passes. -/
theorem settleWithin_keeps {holds : Session → Prop} (draws : ∀ s f, holds s → holds (s.draw f))
    (resumes : ∀ s, holds s → holds s.resume) (here : holds sim.session) (ticks : Nat) :
    holds (sim.settleWithin ticks).session := by
  induction ticks generalizing sim with
  | zero => exact here
  | succ ticks ih =>
    have moved := draws sim.session (·.update tick) here
    unfold settleWithin
    split
    · refine ih ?_
      unfold step
      dsimp only
      split
      · exact moved
      · exact resumes _ moved
    · exact here

/-- A line that compiles starts its program in a store that holds functions of earlier lines. -/
theorem runLine_runs (lexical : sim.session.Lexical config (parsedLines lines)) {line : String}
    (compiles : Program.compile line = .ok program) :
    ∃ start : World, start.store.Lexical (DeclaredIn (parsedLines lines)) ∧
      (sim.runLine line).session.Runs program start := by
  have stopped := lexical.abandon
  obtain ⟨start,store,runs⟩ : ∃ start : World, start.store.Lexical (DeclaredIn (parsedLines lines)) ∧
      (sim.session.runLine line).Runs program start := by
    unfold Session.runLine
    rw [compiles]
    dsimp only
    split
    · exact ⟨_,Session.refresh_lexical _,Session.start_runs _ program⟩
    · exact ⟨_,stopped.store,Session.start_runs { sim.session.abandon with diagnostics := [] } program⟩
  refine ⟨start,store,?_⟩
  exact settleWithin_keeps (fun _ f runs => runs.draw f) (fun _ runs => runs.resume) runs _

theorem runLine_lexical (lexical : sim.session.Lexical config (parsedLines lines)) (line : String) :
    (sim.runLine line).session.Lexical config (parsedLines (lines ++ [line])) := by
  have parsed : parsedLines (lines ++ [line]) = parsedLines lines ++ (Program.compile line).toOption.toList := by
    unfold parsedLines
    rw [List.flatMap_append,List.flatMap_singleton]
  rw [parsed]
  refine settleWithin_keeps (fun _ f lexical => lexical.draw f) (fun _ lexical => lexical.resume) ?_ _
  exact lexical.follow (Program.compile line)

theorem runLine_told (told : sim.session.Told config lines) (line : String) :
    (sim.runLine line).session.Told config (lines ++ [line]) := by
  refine ⟨settleWithin_sound (told.sound.runLine line) _,runLine_lexical told.lexical line,fun failure failed => ?_⟩
  cases compiles : Program.compile line with
  | error problems =>
    obtain ⟨kept,stopped⟩ := told.sound.runLine_refused compiles
    rw [runLine,settle_of_stopped stopped,kept] at failed
    obtain ⟨before,last,after,rfl,refused,placed⟩ := told.failure failure failed
    refine ⟨before,last,after ++ [line],by simp,fun later mem => ?_,placed⟩
    rcases List.mem_append.mp mem with old | new
    · exact refused later old
    · rw [List.mem_singleton.mp new,compiles]
      rfl
  | ok program =>
    obtain ⟨start,store,runs⟩ := runLine_runs told.lexical compiles
    obtain ⟨span,known,inside,_⟩ := runs.failed store failed
    refine ⟨lines,line,[],rfl,nofun,program,compiles,span,known,?_⟩
    rcases spanOf_reachable inside with own | ⟨p,mem,d,name,params,body,whole,nests,there⟩
    · exact .inl ⟨own,spans_placed compiles span own⟩
    · obtain ⟨earlier,listed,compiled⟩ := mem_parsedLines.mp mem
      have placed := spans_placed compiled span (nests.mem_spans there)
      exact .inr ⟨earlier,listed,p,compiled,placed,d,name,params,body,whole,nests,there⟩

theorem lines_told (config : Config) (lines : List String) :
    (lines.foldl runLine (.ofConfig config)).session.Told config lines := by
  induction lines using List.reverseRecOn with
  | nil => exact ⟨Session.ofConfig_sound config,Session.ofConfig_lexical config,nofun⟩
  | append_singleton lines line ih =>
    rw [List.foldl_append]
    exact runLine_told ih line

end Simulation

/-- A failure after some lines of a conversation always has a place. It is the failure of the last line that compiles,
and its place is one in that line or in a function declared in an earlier line. -/
theorem lines_failure_located (config : Config) (lines : List String) {failure : Failure}
    (failed : (lines.foldl Simulation.runLine (.ofConfig config)).session.failure? = some failure) :
    ∃ before line after, lines = before ++ line :: after ∧ FailsAmong before line after failure :=
  (Simulation.lines_told config lines).failure failure failed

/-- A line that declares a function which cannot be called, and a line that calls it. -/
def failingLines : List String := ["function f() \x7b return 1 + missing; \x7d","f();"]

theorem lines_failure_located_failingLines :
    let failure : Failure := ⟨.undefinedVariable "missing",some ⟨26,33,1⟩⟩
    (failingLines.foldl Simulation.runLine (.ofConfig {})).session.failure? = some failure ∧
      ∃ before line after, failingLines = before ++ line :: after ∧ FailsAmong before line after failure := by
  intro failure
  have failed : (failingLines.foldl Simulation.runLine (.ofConfig {})).session.failure? = some failure := by
    decide +kernel
  exact ⟨failed,lines_failure_located {} failingLines failed⟩

/-- The call on the second line fails at a place that is not in that line: it is further on than the line is long, and
nothing parsed from the line is there. -/
theorem failure_elsewhere :
    (failingLines.foldl Simulation.runLine (.ofConfig {})).session.failure? =
      some ⟨.undefinedVariable "missing",some ⟨26,33,1⟩⟩ ∧
    failingLines.getLast? = some "f();" ∧ "f();".utf8ByteSize < 26 ∧
    ∀ program ∈ (Program.compile "f();").toOption, ⟨26,33,1⟩ ∉ program.spans := by
  decide +kernel

end TurtleScript
