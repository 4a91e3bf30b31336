import TurtleScript.Session
import TurtleScript.Proofs.Carrying
import TurtleScript.Proofs.LoopLimit

/-!
Every program halts. Whatever its trees, its configuration and the world it is started in, the machine
takes finitely many steps each time it is let go on and then has finished or is suspended; and with a
host that lets it go on, it is suspended finitely often before it has finished. A session that starts
the program and goes on with it sees the same. No loop of the machine has begun more rounds than allowed
(`Machine.Counted.step`), so words can count them, whatever the limit is but the greatest word.
-/

namespace TurtleScript

namespace Machine

/-- There is nothing left to do. -/
def Finished : Machine → Prop
  | .giving _ .empty _ => True
  | _ => False

/-- It waits for a turtle that is on its way, and is not asked to stop. -/
def Suspended : Machine → Prop
  | .waiting _ _ w => w.sprite.gliding = true ∧ w.monitor.killRequested = false
  | _ => False

def world : Machine → World
  | .doing _ _ w | .waiting _ _ w | .giving _ _ w => w

/-- The machine in a world that its host hands back. -/
def hand (m : Machine) (v : World) : Machine :=
  match m with
  | .doing code rest _ => .doing code rest v
  | .waiting code rest _ => .waiting code rest v
  | .giving result rest _ => .giving result rest v

/-- The machines that a host lets go on: the one in front of the program, and any that is suspended, in
any world the host may hand back. -/
inductive Polled (config : Config) (start : Machine) : Machine → Prop where
  | start : Polled config start start
  | resumed {m : Machine} {n : Nat} {v : World} (polled : Polled config start m)
      (suspended : (m.after config n).Suspended) (handed : Handed (m.after config n).world v) :
      Polled config start ((m.after config n).hand v)

/-- With a host that hands back a world at each wait, the machine has finished after a number of waits. -/
inductive Halts (config : Config) :
    (Nat → World → World) → Machine → Nat → Except Interruption Flow → World → Prop where
  | finished {host : Nat → World → World} {m : Machine} {result : Except Interruption Flow} {v : World} (n : Nat)
      (finished : m.after config n = .giving result .empty v) : Halts config host m 0 result v
  | suspended {host : Nat → World → World} {m : Machine} {waits : Nat} {result : Except Interruption Flow}
      {v : World} (n : Nat) (suspended : (m.after config n).Suspended)
      (halts : Halts config (fun k => host (k + 1))
        ((m.after config n).hand (host 0 (m.after config n).world)) waits result v) :
      Halts config host m (waits + 1) result v

theorem Suspended.rests {m : Machine} (suspended : m.Suspended) (config : Config) : m.step config = none := by
  cases m with
  | waiting code rest w =>
    obtain ⟨gliding,unasked⟩ := suspended
    rw [step,unasked,gliding]
    rfl
  | doing code rest w => exact suspended.elim
  | giving result rest w => exact suspended.elim

end Machine

/-! ### Counts of rounds -/

/-- All counts of rounds in the code are of a kind. -/
def Code.Counted (kind : Nat → Prop) : {α : Type} → Code α → Prop
  | _, .rounds _ _ begun | _, .between _ _ begun => kind begun
  | _, _ => True

def Rest.Counted (kind : Nat → Prop) : {α β : Type} → Rest α β → Prop
  | _, _, .condition _ _ begun | _, _, .round _ _ begun => kind begun
  | _, _, _ => True

inductive Stack.Counted (kind : Nat → Prop) : {α : Type} → Stack α → Prop where
  | empty : Counted kind .empty
  | push {α β : Type} {rest : Stack β} {r : Rest α β} (top : r.Counted kind) (below : Counted kind rest) :
      Counted kind (rest.push r)

/-- All counts of rounds in the machine are of a kind. -/
def Machine.Counted (kind : Nat → Prop) : Machine → Prop
  | .doing code rest _ | .waiting code rest _ => code.Counted kind ∧ rest.Counted kind
  | .giving _ rest _ => rest.Counted kind

section
variable {kind : Nat → Prop} {α β : Type} {rest : Stack α} {w : World}

namespace Machine

theorem counted_act (action : Action α) (below : rest.Counted kind) : (act action rest w).Counted kind := by
  unfold act
  split
  · exact below
  · exact below

theorem counted_ite {c : Prop} [Decidable c] {yes no : Machine} (holds : c → yes.Counted kind)
    (fails : ¬ c → no.Counted kind) : (if c then yes else no).Counted kind := by
  split
  · exact holds ‹_›
  · exact fails ‹_›

theorem counted_pause {code : Code α} (here : code.Counted kind) (below : rest.Counted kind) :
    (pause code rest w).Counted kind := by
  unfold pause
  exact counted_ite (fun _ => below) fun _ => counted_ite (fun _ => ⟨here,below⟩) fun _ => ⟨here,below⟩

theorem counted_option (e : Option Expr) {rest : Stack Value} (below : rest.Counted kind) :
    (option e rest w).Counted kind := by
  cases e with
  | some e => exact ⟨trivial,below⟩
  | none => exact below

theorem counted_enter (scope : FrameId) (ss : List Stmt) {rest : Stack Flow} (below : rest.Counted kind) :
    (enter scope ss rest w).Counted kind := ⟨trivial,.push trivial below⟩

theorem Counted.mono {other : Nat → Prop} {m : Machine} (counted : m.Counted kind)
    (weaker : ∀ begun, kind begun → other begun) : m.Counted other := by
  have below : ∀ {α : Type} {rest : Stack α}, rest.Counted kind → rest.Counted other := by
    intro α rest below
    induction below with
    | empty => exact .empty
    | @push _ _ _ r top _ ih =>
      refine .push ?_ ih
      cases r with
      | condition | round => exact weaker _ top
      | _ => exact trivial
  have codes : ∀ {α : Type} {code : Code α}, code.Counted kind → code.Counted other := by
    intro α code here
    cases code with
    | rounds | between => exact weaker _ here
    | _ => exact trivial
  cases m with
  | doing code rest w => exact ⟨codes counted.1,below counted.2⟩
  | waiting code rest w => exact ⟨codes counted.1,below counted.2⟩
  | giving result rest w => exact below counted

end Machine

theorem Expr.begin_counted (e : Expr) {rest : Stack Value} (below : rest.Counted kind) :
    (e.begin rest w).Counted kind := by
  cases e with
  | literal => exact below
  | grouping => exact ⟨trivial,below⟩
  | var => exact Machine.counted_act _ below
  | _ => exact ⟨trivial,.push trivial below⟩

theorem Function.begin_counted (f : Function) (args : List Value) {rest : Stack Value} (below : rest.Counted kind) :
    (f.begin args rest w).Counted kind := by
  unfold Function.begin
  refine Machine.counted_ite (fun _ => below) fun _ => ?_
  split
  · exact ⟨trivial,.push trivial below⟩
  · exact ⟨trivial,.push trivial below⟩
  · exact Machine.counted_act _ below
  · exact ⟨trivial,below⟩

end

section
variable {config : Config} {α β : Type} {w : World}

/-- The number of rounds is one that the loops of a configuration may have begun. -/
def Config.Allows (config : Config) (begun : Nat) : Prop := begun ≤ config.maxLoopIterations

theorem Stmt.begin_counted (s : Stmt) {rest : Stack Flow} (below : rest.Counted config.Allows) :
    (s.begin rest w).Counted config.Allows := by
  cases s with
  | expression | branch => exact ⟨trivial,.push trivial below⟩
  | var | giveBack => exact Machine.counted_option _ (.push trivial below)
  | function name params body =>
    exact Machine.counted_act (Action.renew (·.newClosure w.scope name params body)) (.push trivial below)
  | block body => exact Machine.counted_act (Action.renew (·.child w.scope)) (.push trivial below)
  | loop => exact ⟨Nat.zero_le _,below⟩

theorem Code.step_counted (code : Code α) {rest : Stack α} (here : code.Counted config.Allows)
    (below : rest.Counted config.Allows) : (code.step config rest w).Counted config.Allows := by
  cases code with
  | expr e => exact e.begin_counted (.push trivial below)
  | exprs es =>
    cases es with
    | nil => exact below
    | cons => exact ⟨trivial,.push trivial below⟩
  | stmt => exact Machine.counted_pause trivial below
  | inside s => exact s.begin_counted (.push trivial below)
  | stmts index ss =>
    cases ss with
    | nil => exact below
    | cons => exact ⟨trivial,.push trivial below⟩
  | rounds => exact ⟨trivial,.push here below⟩
  | between => exact Machine.counted_pause here below
  | call => exact Machine.counted_ite (fun _ => below) fun _ => Machine.counted_act _ (.push trivial below)
  | params scope bindings =>
    cases bindings with
    | nil => exact below
    | cons => exact Machine.counted_act _ (.push trivial (.push trivial below))
  | text pieces written =>
    match pieces with
    | [] => exact below
    | .text more :: pieces => exact ⟨trivial,below⟩
    | .value depth a :: pieces =>
      cases a with
      | array id => exact Machine.counted_ite (fun _ => ⟨trivial,below⟩) fun _ => ⟨trivial,below⟩
      | _ => exact ⟨trivial,below⟩

theorem Rest.take_counted {rest : Stack β} (r : Rest α β) (here : r.Counted config.Allows)
    (below : rest.Counted config.Allows) (a : α) : (r.take config a rest w).Counted config.Allows := by
  cases r with
  | located | assigned | others | effect | result | asText | exit => exact below
  | assign => exact Machine.counted_act _ (.push trivial below)
  | unary | right | position => exact Machine.counted_act _ below
  | items => exact Machine.counted_act (Action.renew (·.newArray a)) below
  | printed => exact Machine.counted_act (do Action.print a; return .null) below
  | decider => exact Machine.counted_ite (fun _ => below) fun _ => ⟨trivial,below⟩
  | callee e args =>
    cases a with
    | function f => exact ⟨trivial,.push trivial below⟩
    | _ => exact below
  | arguments f => exact f.begin_counted a below
  | initial => exact Machine.counted_act _ (.push trivial (.push trivial below))
  | test yes no =>
    refine Machine.counted_ite (fun _ => ⟨trivial,below⟩) fun _ => ?_
    cases no with
    | some no => exact ⟨trivial,below⟩
    | none => exact below
  | entered => exact Machine.counted_enter _ _ below
  | next | body =>
    cases a with
    | next => first | exact ⟨trivial,below⟩ | exact below
    | returned => exact below
  | condition test body begun =>
    refine Machine.counted_ite (fun _ => ?_) fun _ => below
    exact Machine.counted_ite (fun _ => below) fun more => ⟨trivial,.push (Nat.not_lt.mp more) below⟩
  | round =>
    cases a with
    | next => exact ⟨here,below⟩
    | returned => exact below
  | bound => exact Machine.counted_enter _ _ (.push trivial (.push trivial below))
  | param => exact ⟨trivial,below⟩
  | _ => exact ⟨trivial,.push trivial below⟩

theorem Rest.drop_counted {kind : Nat → Prop} {rest : Stack β} (r : Rest α β) (below : rest.Counted kind)
    (e : Interruption) : (r.drop e rest w).Counted kind := by
  cases r with
  | _ => exact below

theorem Machine.Counted.step {m later : Machine} (counted : m.Counted config.Allows)
    (stepped : m.step config = some later) : later.Counted config.Allows := by
  cases m with
  | doing code rest w =>
    cases stepped
    exact code.step_counted counted.1 counted.2
  | waiting code rest w =>
    cases asked : w.monitor.killRequested with
    | true =>
      rw [Machine.step,asked] at stepped
      cases stepped
      exact counted.2
    | false =>
      rw [Machine.step,asked] at stepped
      cases gliding : w.sprite.gliding with
      | true =>
        rw [gliding] at stepped
        cases stepped
      | false =>
        rw [gliding] at stepped
        cases stepped
        exact counted
  | giving result rest w =>
    cases counted with
    | empty => cases stepped
    | push top below =>
      cases result with
      | ok a =>
        cases stepped
        exact Rest.take_counted _ top below a
      | error e =>
        cases stepped
        exact Rest.drop_counted _ below e

theorem Machine.Counted.after {m : Machine} (counted : m.Counted config.Allows) (n : Nat) :
    (m.after config n).Counted config.Allows := by
  induction n generalizing m with
  | zero => exact counted
  | succ n ih =>
    unfold Machine.after
    split
    · exact ih (counted.step ‹_›)
    · exact counted

theorem Program.machine_counted (program : Program) (w : World) : (program.machine w).Counted config.Allows :=
  Machine.counted_enter _ _ (.push trivial .empty)

theorem Machine.Polled.counted {start m : Machine} (counted : start.Counted config.Allows)
    (polled : Polled config start m) : m.Counted config.Allows := by
  induction polled with
  | start => exact counted
  | @resumed m n v _ suspended handed ih =>
    have there := ih.after n
    generalize m.after config n = later at there
    cases later <;> exact there

end

section
variable {config : Config} {m : Machine} {run : Run Flow}

theorem Carries.rests (carries : Carries config .empty m run) :
    ∃ n, (m.after config n).Finished ∨ (m.after config n).Suspended := by
  cases carries with
  | done comes =>
    obtain ⟨n,there⟩ := comes
    exact ⟨n,.inl (by rw [there]; trivial)⟩
  | waiting comes gliding unasked _ =>
    obtain ⟨n,there⟩ := comes
    exact ⟨n,.inr (by rw [there]; exact ⟨gliding,unasked⟩)⟩

/-- A suspended machine in a world handed back carries out what is behind the wait, or goes on waiting. -/
theorem Carries.resumed (carries : Carries config .empty m run) {n : Nat}
    (suspended : (m.after config n).Suspended) {v : World} (handed : Handed (m.after config n).world v) :
    ∃ later, Carries config .empty ((m.after config n).hand v) later := by
  cases carries with
  | done comes =>
    have same := Machine.Comes.unique comes ⟨n,rfl⟩ rfl (suspended.rests config)
    rw [← same] at suspended
    exact suspended.elim
  | @waiting _ _ code inner u resume comes gliding unasked resumes =>
    have there : Machine.Suspended (.waiting code inner u) := ⟨gliding,unasked⟩
    have same := Machine.Comes.unique comes ⟨n,rfl⟩ (there.rests config) (suspended.rests config)
    rw [← same] at handed ⊢
    by_cases letsGo : v.LetsGo
    · exact ⟨resume v,resumes v handed letsGo⟩
    · obtain ⟨still,asked⟩ := not_or.mp letsGo
      refine ⟨.waiting v resume,.waiting (.refl _) (Bool.of_not_eq_false still) ?_ fun x again go => ?_⟩
      · exact Bool.of_not_eq_true asked
      · exact resumes x (handed.trans again) go

theorem Machine.Polled.carries {start : Machine} (carries : Carries config .empty start run)
    (polled : Polled config start m) : ∃ later, Carries config .empty m later := by
  induction polled with
  | start => exact ⟨run,carries⟩
  | resumed _ suspended handed ih =>
    obtain ⟨later,carried⟩ := ih
    exact carried.resumed suspended handed

end

/-- The session after a number of waits, at each of which its host has handed back a world. -/
def Session.resumedBy (host : Nat → World → World) (s : Session) : Nat → Session
  | 0 => s
  | n + 1 => ({ s with world := host 0 s.world }.resume).resumedBy (fun k => host (k + 1)) n

theorem Session.settleIn_settleIn (s : Session) (program : Program) (run later : Run Flow) (w : World) :
    { s.settleIn program run with world := w }.settleIn program later = s.settleIn program later := by
  cases run <;> cases later <;> rfl

theorem Session.resumedBy_succ (s : Session) (program : Program) {u : World} (resume : World → Run Flow)
    {host : Nat → World → World} (letsGo : (host 0 u).LetsGo) (n : Nat) :
    (s.settleIn program (.waiting u resume)).resumedBy host (n + 1) =
      (s.settleIn program (resume (host 0 u))).resumedBy (fun k => host (k + 1)) n := by
  have goes : ¬ ((host 0 u).sprite.gliding && !(host 0 u).monitor.killRequested) = true := by
    rcases letsGo with still | asked
    · simp [still]
    · simp [asked]
  have resumed : { s.settleIn program (.waiting u resume) with world := host 0 u }.resume =
      s.settleIn program (resume (host 0 u)) :=
    (if_neg goes).trans (s.settleIn_settleIn program (.waiting u resume) _ _)
  exact congrArg (·.resumedBy (fun k => host (k + 1)) n) resumed

/-- A host that hands back a world whenever a run waits, in which the run may go on. -/
def Hosts (host : Nat → World → World) : Prop := ∀ k w, Handed w (host k w) ∧ (host k w).LetsGo

/-- Machine and session finish after the same waits with the same result, if the machine carries out the
run that the session is in. -/
theorem Carries.halts {config : Config} {m : Machine} {run : Run Flow} (carries : Carries config .empty m run)
    (s : Session) (program : Program) : ∀ host, Hosts host → ∃ waits result v,
      m.Halts config host waits result v ∧
      (∀ k < waits, ((s.settleIn program run).resumedBy host k).state = .suspended) ∧
      (s.settleIn program run).resumedBy host waits = s.settleIn program (.done result v) := by
  induction carries with
  | @done m result v comes =>
    intro host hosts
    obtain ⟨n,there⟩ := comes
    exact ⟨0,result,v,.finished n there,fun k few => absurd few (Nat.not_lt_zero k),rfl⟩
  | @waiting m _ code inner u resume comes gliding unasked resumes ih =>
    intro host hosts
    obtain ⟨n,there⟩ := comes
    obtain ⟨handed,letsGo⟩ := hosts 0 u
    obtain ⟨waits,result,v,halts,suspended,finished⟩ :=
      ih (host 0 u) handed letsGo (fun k => host (k + 1)) fun k => hosts (k + 1)
    refine ⟨waits + 1,result,v,.suspended n ?_ ?_,fun k few => ?_,?_⟩
    · rw [there]
      exact ⟨gliding,unasked⟩
    · rw [there]
      exact halts
    · cases k with
      | zero => rfl
      | succ k =>
        rw [s.resumedBy_succ program resume letsGo]
        exact suspended k (Nat.lt_of_succ_lt_succ few)
    · rw [s.resumedBy_succ program resume letsGo]
      exact finished

/-- Every program halts, whatever the session is in which it is started. Each time it is let go on it takes
finitely many steps and then has finished or is suspended, and a host that lets it go on whenever it waits
does so finitely often before it has finished. The session is suspended at the same waits and ends with
the same result. The limit on loops is less than the greatest word, so that on the way no count of rounds
that is a word goes round. -/
theorem every_program_halts (s : Session) (fits : s.config.maxLoopIterations < Word.last) (program : Program) :
    (∀ m, Machine.Polled s.config (program.machine s.world) m →
      (∃ n, (m.after s.config n).Finished ∨ (m.after s.config n).Suspended) ∧
      ∀ n, (m.after s.config n).Counted fun begun => Word.next begun = begun + 1) ∧
    ∀ host, Hosts host → ∃ waits result v,
      (program.machine s.world).Halts s.config host waits result v ∧
      (∀ k < waits, ((s.start program).resumedBy host k).state = .suspended) ∧
      (s.start program).resumedBy host waits = s.settleIn program (.done result v) := by
  have carries := script_carried s.config program s.world
  refine ⟨fun m polled => ?_,carries.halts s program⟩
  obtain ⟨_,carried⟩ := polled.carries carries
  refine ⟨carried.rests,fun n => ?_⟩
  have counted := (polled.counted (program.machine_counted s.world)).after n
  exact counted.mono fun begun allowed => Word.next_eq (Nat.lt_of_le_of_lt allowed fits)

/-- A function that calls itself before it does anything else, and a list that holds itself. -/
def endlessProgram : Program :=
  ⟨[.function ⟨"again",default⟩ [] [.expression (.call (.var "again" default) [] default) default] default,
    .var ⟨"list",default⟩ (some (.array [] default)) default,
    .expression (.call (.var "pushBack" default) [.var "list" default,.var "list" default] default) default,
    .expression (.call (.var "print" default) [.var "list" default] default) default,
    .expression (.call (.var "again" default) [] default) default]⟩

theorem every_program_halts_endless :
    let s := (Session.ofConfig {}).refresh
    let start := endlessProgram.machine s.world
    s.config.maxLoopIterations < Word.last ∧
      (Machine.Polled {} start start ∧ ∃ n, (start.after {} n).Finished ∨ (start.after {} n).Suspended) ∧
      Hosts (fun _ w => { w with sprite := w.sprite.stopGlide }) ∧
      ∃ waits result v, start.Halts {} (fun _ w => { w with sprite := w.sprite.stopGlide }) waits result v := by
  intro s start
  have hosts : Hosts fun _ w => { w with sprite := w.sprite.stopGlide } := fun _ w => ⟨handed_sprite w _,.inl rfl⟩
  have fits : s.config.maxLoopIterations < Word.last := by decide
  obtain ⟨polls,halting⟩ := every_program_halts s fits endlessProgram
  obtain ⟨waits,result,v,halts,_⟩ := halting _ hosts
  exact ⟨fits,⟨.start,(polls start .start).1⟩,hosts,waits,result,v,halts⟩

end TurtleScript
