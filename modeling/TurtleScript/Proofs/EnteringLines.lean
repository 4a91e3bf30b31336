import TurtleScript.Simulation
import TurtleScript.Proofs.AlikeSessions
import TurtleScript.Proofs.Lines
import TurtleScript.Proofs.ParserCompleteness

/-!
Entering lines one by one or at once. Statements that do not return go on with whatever comes behind them, so that the
run of one text in front of another is the run of the one and then that of the other (`script_seam`). A run that is
given time takes as many ticks for two parts as for both together (`Run.ticked_andThen`). So a session in which two
lines were entered cannot be told from one in which they were entered as one (`runLine_runLine`).
-/

namespace TurtleScript

mutual

/-- Whether there is a `return` in the statement, outside of any function. -/
def Stmt.givesBack : Stmt → Bool
  | .block body _ => Stmt.anyGivesBack body
  | .branch _ yes no _ => yes.givesBack || Stmt.optionGivesBack no
  | .giveBack _ _ => true
  | .loop _ body _ => body.givesBack
  | .expression _ _ | .function _ _ _ _ | .var _ _ _ => false

def Stmt.optionGivesBack : Option Stmt → Bool
  | some s => s.givesBack
  | none => false

def Stmt.anyGivesBack : List Stmt → Bool
  | [] => false
  | s :: ss => s.givesBack || Stmt.anyGivesBack ss

end

/-- Whether there is a `return` in the program, outside of any function. -/
def Program.givesBack (program : Program) : Bool := Stmt.anyGivesBack program.statements

namespace Script

/-- A computation that, where it is not interrupted, goes on with what comes behind it. -/
def Falls (m : Script Flow) : Prop := ∀ w flow v, (m w).Ends (.ok flow) v → flow = .next

variable {α : Type}

theorem falls_next : Falls (pure .next) := by
  intro w flow v ends
  cases ends
  rfl

theorem falls_fail (fault : Fault) : Falls (fail fault) := by
  intro w flow v ends
  cases ends

theorem falls_bind {m : Script α} {f : α → Script Flow} (rest : ∀ a, Falls (f a)) : Falls (m >>= f) := by
  intro w flow v ends
  rcases (Run.ends_andThen (m w) f _ v).mp ends with ⟨a,x,_,second⟩ | ⟨e,same,_⟩
  · exact rest a x flow v second
  · cases same

theorem Falls.before {m : Script Flow} (first : Falls m) {f : Flow → Script Flow} (rest : Falls (f .next)) :
    Falls (m >>= f) := by
  intro w flow v ends
  rcases (Run.ends_andThen (m w) f _ v).mp ends with ⟨a,x,ended,second⟩ | ⟨e,same,_⟩
  · cases first w a x ended
    exact rest x flow v second
  · cases same

theorem Falls.locate {m : Script Flow} (falls : Falls m) (span : Span) : Falls (locate span m) := by
  intro w flow v ends
  obtain ⟨inner,ended,same⟩ := (Run.ends_locate span (m w) _ v).mp ends
  cases inner with
  | error e => cases same
  | ok inner =>
    cases same
    exact falls w flow v ended

theorem Falls.inBlock {m : Script Flow} (falls : Falls m) (scope : FrameId) (length : Nat) :
    Falls (inBlock scope length m) := by
  intro w flow v ends
  obtain ⟨x,ended,_⟩ := (Run.ends_atEnd _ _ _ v).mp ends
  exact falls _ flow x ended

theorem falls_ite {c : Bool} {m n : Script Flow} (yes : Falls m) (no : Falls n) : Falls (if c then m else n) := by
  cases c with
  | true => exact yes
  | false => exact no

theorem Falls.repeatWhile (limit : Nat) (test : Script Bool) {body : Script Flow} (falls : Falls body) :
    ∀ rounds, Falls (repeatWhile limit test body rounds)
  | 0 => falls_bind fun _ => falls_ite (falls_fail _) falls_next
  | rounds + 1 => by
    refine falls_bind fun _ => falls_ite (falls.before ?_) falls_next
    exact falls_bind fun _ => Falls.repeatWhile limit test falls rounds

end Script

open Script

section
variable {config : Config} {invoke : Invoke}

mutual

theorem exec_falls : (s : Stmt) → s.givesBack = false → Falls (s.exec config invoke)
  | .expression value span,_ => by
    rw [Stmt.exec]
    exact falls_bind fun _ => Falls.locate (falls_bind fun _ => falls_next) span
  | .var name initial span,_ => by
    rw [Stmt.exec]
    exact falls_bind fun _ => Falls.locate (falls_bind fun _ => falls_bind fun _ => falls_next) span
  | .function name params body span,_ => by
    rw [Stmt.exec]
    refine falls_bind fun _ => Falls.locate (falls_bind fun _ => falls_bind fun _ => ?_) span
    exact falls_bind fun _ => falls_next
  | .block body span,free => by
    rw [Stmt.exec]
    refine falls_bind fun _ => Falls.locate (falls_bind fun _ => falls_bind fun scope => ?_) span
    exact (execAll_falls 0 body free).inBlock scope _
  | .branch test yes no span,free => by
    rw [Stmt.exec]
    obtain ⟨freeYes,freeNo⟩ := Bool.or_eq_false_iff.mp free
    refine falls_bind fun _ => Falls.locate (falls_bind fun _ => ?_) span
    exact falls_ite (exec_falls yes freeYes) (execOption_falls no freeNo)
  | .loop test body span,free => by
    rw [Stmt.exec]
    exact falls_bind fun _ => Falls.locate ((exec_falls body free).repeatWhile _ _ _) span

theorem execOption_falls : (s : Option Stmt) → Stmt.optionGivesBack s = false →
    Falls (Stmt.execOption config invoke s)
  | some s,free => by
    rw [Stmt.execOption]
    exact exec_falls s free
  | none,_ => by
    rw [Stmt.execOption]
    exact falls_next

theorem execAll_falls : (index : Nat) → (ss : List Stmt) → Stmt.anyGivesBack ss = false →
    Falls (Stmt.execAll config invoke index ss)
  | _,[],_ => by
    rw [Stmt.execAll]
    exact falls_next
  | index,s :: ss,free => by
    rw [Stmt.execAll]
    obtain ⟨freeFirst,freeRest⟩ := Bool.or_eq_false_iff.mp free
    exact falls_bind fun _ => (exec_falls s freeFirst).before (execAll_falls (index + 1) ss freeRest)

end

/-- Statements in front of others: the others come behind them, unless one of them returns. -/
theorem execAll_append (ss : List Stmt) (others : List Stmt) (index : Nat) :
    Stmt.execAll config invoke index (ss ++ others) = (do
      match ← Stmt.execAll config invoke index ss with
      | .returned value => return .returned value
      | .next => Stmt.execAll config invoke (index + ss.length) others) := by
  induction ss generalizing index with
  | nil =>
    funext w
    rfl
  | cons s ss ih =>
    rw [List.cons_append,Stmt.execAll,Stmt.execAll]
    funext w
    have inner := ih (index + 1)
    rw [Nat.add_right_comm] at inner
    let first : Run Flow := s.exec config invoke { w with monitor := w.monitor.atStatement index s.span }
    refine Eq.trans ?_ (first.andThen_andThen _ _).symm
    refine congrArg first.andThen (funext fun flow => funext fun v => ?_)
    cases flow with
    | returned value => rfl
    | next => exact congrFun inner v

end

/-- A program that does not return, and then another one, run as the one with the other behind it. -/
theorem script_seam (config : Config) {program other whole : Program} {later : List Stmt}
    (free : program.givesBack = false) (statements : whole.statements = program.statements ++ later)
    (same : Stmt.bareAll later = Stmt.bareAll other.statements) (w : World) :
    ((program.script config w).andThen fun _ => other.script config).Alike World.Alike SameEnd
      (whole.script config w) := by
  let entered (length : Nat) : World :=
    { w with scope := Store.global, callDepth := 0, monitor := w.monitor.enterBlock length }
  have first := statements_alike config 0 0
    (show Stmt.bareAll program.statements = Stmt.bareAll program.statements from rfl)
    (w := entered program.statements.length) (v := entered whole.statements.length) ⟨rfl,rfl,rfl,rfl,rfl,rfl⟩
  let leave (x : World) : World := { x with scope := Store.global, monitor := x.monitor.exitBlock }
  let finish (x : World) : World := { x with monitor := { x.monitor with scope := some Store.global } }
  let next (flow : Flow) : Script Flow :=
    match flow with
    | .returned value => return .returned value
    | .next => Stmt.execAll config (invoke config) (0 + program.statements.length) later
  have split : whole.script config w =
      (((Stmt.execAll config (invoke config) 0 program.statements (entered whole.statements.length)).andThen
        next).atEnd leave).atEnd finish := by
    show ((Stmt.execAll config (invoke config) 0 whole.statements (entered whole.statements.length)).atEnd
      leave).atEnd finish = _
    rw [statements,execAll_append]
    rfl
  rw [split]
  refine first.through (fun run => ((run.atEnd leave).atEnd finish).andThen fun _ => other.script config)
    (fun run => ((run.andThen next).atEnd leave).atEnd finish) (fun _ _ => rfl) (fun _ _ => rfl) ?_
  intro r x r' y flows worlds ended ended'
  have outcomes := flows.sameEnd
  obtain ⟨o,left,right⟩ := flows
  -- An interruption ends both runs. Otherwise the first program has gone on, and the other one comes behind it.
  cases left with
  | error e =>
    cases right' : r' with
    | ok flow =>
      rw [right'] at right
      cases right
    | error e' =>
      rw [right'] at outcomes
      exact ⟨outcomes,worlds.store,worlds.sprite,worlds.printed,rfl,worlds.callDepth,worlds.asked⟩
  | @ok flow _ paired =>
    cases right' : r' with
    | error e' =>
      rw [right'] at right
      cases right
    | ok flow' =>
      rw [right'] at ended'
      cases execAll_falls 0 program.statements free _ _ _ ended
      cases execAll_falls 0 program.statements free _ _ _ ended'
      obtain ⟨scope,depth,_⟩ := (steady_compositional.statements config program).ends rfl rfl ended
      let between := finish (leave x)
      have entered : World.Alike { between with
          scope := Store.global, callDepth := 0, monitor := between.monitor.enterBlock other.statements.length } y :=
        ⟨worlds.store,worlds.sprite,worlds.printed,worlds.scope.trans scope,worlds.callDepth.trans depth,worlds.asked⟩
      have rest := statements_alike config 0 (0 + program.statements.length) same entered
      refine ((rest.weaken fun _ _ => SameFlow.sameEnd).atEnd fun u v after => ?_).atEnd fun u v after => ?_
      · exact ⟨after.store,after.sprite,after.printed,rfl,after.callDepth,after.asked⟩
      · exact ⟨after.store,after.sprite,after.printed,after.scope,after.callDepth,after.asked⟩

/-! ### Ticks -/

namespace Run

variable {α β : Type}

/-- The run one tick later: it goes on as soon as the turtle has come to a stop. -/
def tick : Run α → Run α
  | .done r w => .done r w
  | .waiting w m =>
    let moved := { w with sprite := w.sprite.update Simulation.tick }
    if moved.sprite.gliding then .waiting moved m else m moved

/-- The run after a number of ticks or at its end, with the ticks that passed. -/
def ticked (run : Run α) : Nat → Nat × Run α
  | 0 => (0,run)
  | n + 1 =>
    match run with
    | .done r w => (0,.done r w)
    | .waiting w m => ((ticked (tick (.waiting w m)) n).1 + 1,(ticked (tick (.waiting w m)) n).2)

/-! One tick. -/

theorem tick_ends {run : Run α} {r : Except Interruption α} {w : World} (ends : run.tick.Ends r w) : run.Ends r w := by
  cases run with
  | done r' v => exact ends
  | waiting v m =>
    have handed := handed_sprite v (v.sprite.update Simulation.tick)
    unfold tick at ends
    dsimp only at ends
    split at ends
    · obtain ⟨u,later,rest⟩ := ends_waiting.mp ends
      exact .waiting (handed.trans later) rest
    · exact .waiting handed ends

theorem tick_andThen (w : World) (m : World → Run α) (f : α → World → Run β) :
    ((waiting w m).andThen f).tick = (waiting w m).tick.andThen f := by
  show (waiting w fun v => (m v).andThen f).tick = _
  unfold tick
  dsimp only
  split <;> rfl

theorem Alike.tick {same : Except Interruption α → Except Interruption α → Prop} {run run' : Run α}
    (alike : run.Alike World.Alike same run') : run.tick.Alike World.Alike same run'.tick := by
  cases run with
  | done r w =>
    cases run' with
    | done r' v => exact alike
    | waiting => exact alike.elim
  | waiting w m =>
    cases run' with
    | done => exact alike.elim
    | waiting v n =>
      have moved := alike.1.draw (·.update Simulation.tick)
      have handed := handed_sprite w (w.sprite.update Simulation.tick)
      have handed' := handed_sprite v (v.sprite.update Simulation.tick)
      have gliding : (v.sprite.update Simulation.tick).gliding = (w.sprite.update Simulation.tick).gliding :=
        congrArg _ moved.sprite
      unfold Run.tick
      simp only [gliding]
      split
      · exact alike.handed handed handed' moved
      · exact alike.2 _ _ handed handed' moved

theorem Obeys.tick {run : Run α} {asked : Bool} (obeys : run.Obeys asked) : run.tick.Obeys asked := by
  cases run with
  | done r w => exact obeys
  | waiting w m =>
    have handed := handed_sprite w (w.sprite.update Simulation.tick)
    unfold Run.tick
    dsimp only
    split
    · exact ⟨obeys.1,fun v later => obeys.2 v (handed.trans later)⟩
    · have unchanged : w.monitor.killRequested = asked := obeys.1
      rw [← unchanged]
      exact (obeys.2 _ handed).2

/-! Any number of them. -/

theorem ticked_done (r : Except Interruption α) (w : World) (n : Nat) : (done r w).ticked n = (0,.done r w) := by
  cases n <;> rfl

theorem ticked_waiting (w : World) (m : World → Run α) (n : Nat) :
    (waiting w m).ticked (n + 1) = (((waiting w m).tick.ticked n).1 + 1,((waiting w m).tick.ticked n).2) := rfl

theorem ticked_le (run : Run α) (n : Nat) : (run.ticked n).1 ≤ n := by
  induction n generalizing run with
  | zero => exact Nat.le_refl 0
  | succ n ih =>
    cases run with
    | done r w => exact Nat.zero_le _
    | waiting w m => exact Nat.succ_le_succ (ih _)

theorem Obeys.ticked {run : Run α} {asked : Bool} (obeys : run.Obeys asked) (n : Nat) :
    (run.ticked n).2.Obeys asked := by
  induction n generalizing run with
  | zero => exact obeys
  | succ n ih =>
    cases run with
    | done r w => exact obeys
    | waiting w m => exact ih obeys.tick

theorem ticked_ends {run : Run α} {n : Nat} {r : Except Interruption α} {w : World}
    (ended : (run.ticked n).2 = .done r w) : run.Ends r w := by
  induction n generalizing run with
  | zero =>
    cases ended
    exact .done r w
  | succ n ih =>
    cases run with
    | done r' v =>
      cases ended
      exact .done r w
    | waiting v m => exact tick_ends (ih ended)

theorem ticked_of_le {run : Run α} {n : Nat} {r : Except Interruption α} {w : World}
    (ended : (run.ticked n).2 = .done r w) {time : Nat} (enough : (run.ticked n).1 ≤ time) :
    run.ticked time = run.ticked n := by
  induction n generalizing run time with
  | zero =>
    cases ended
    exact ticked_done r w time
  | succ n ih =>
    cases run with
    | done r' v => exact ticked_done r' v time
    | waiting v m =>
      cases time with
      | zero => exact absurd enough (Nat.not_succ_le_zero _)
      | succ time =>
        have rest := ih ended (Nat.le_of_succ_le_succ enough)
        rw [ticked_waiting,ticked_waiting,rest]

theorem ticked_andThen {run : Run α} {f : α → World → Run β} {n : Nat} {a : α} {w : World}
    (ended : (run.ticked n).2 = .done (.ok a) w) :
    let rest := (f a w).ticked (n - (run.ticked n).1)
    (run.andThen f).ticked n = ((run.ticked n).1 + rest.1,rest.2) := by
  induction n generalizing run with
  | zero =>
    cases ended
    exact Prod.ext (Nat.zero_add _).symm rfl
  | succ n ih =>
    cases run with
    | done r v =>
      cases ended
      exact Prod.ext (Nat.zero_add _).symm rfl
    | waiting v m =>
      have rest := ih ended
      rw [← tick_andThen] at rest
      show ((((waiting v m).andThen f).tick.ticked n).1 + 1,(((waiting v m).andThen f).tick.ticked n).2) = _
      rw [rest,ticked_waiting]
      dsimp only
      rw [Nat.succ_sub_succ,Nat.add_right_comm]

theorem Alike.ticked {same : Except Interruption α → Except Interruption α → Prop} {run run' : Run α}
    (alike : run.Alike World.Alike same run') (n : Nat) :
    (run'.ticked n).1 = (run.ticked n).1 ∧ (run.ticked n).2.Alike World.Alike same (run'.ticked n).2 := by
  induction n generalizing run run' with
  | zero => exact ⟨rfl,alike⟩
  | succ n ih =>
    cases run with
    | done r w =>
      cases run' with
      | done r' v => exact ⟨rfl,alike⟩
      | waiting => exact alike.elim
    | waiting w m =>
      cases run' with
      | done => exact alike.elim
      | waiting v m' =>
        obtain ⟨ticks,rest⟩ := ih alike.tick
        exact ⟨congrArg (· + 1) ticks,rest⟩

/-- A run, and then another one, take the time that one like both of them takes, if that comes to an end. -/
theorem Alike.seam {same : Except Interruption β → Except Interruption β → Prop} {run : Run α} {f : α → World → Run β}
    {whole : Run β} (alike : (run.andThen f).Alike World.Alike same whole) {n : Nat} {a : α} {w : World}
    (ended : (run.ticked n).2 = .done (.ok a) w) {r' : Except Interruption β} {v : World}
    (ended' : (whole.ticked n).2 = .done r' v) :
    ∃ r x, ((f a w).ticked n).2 = .done r x ∧ same r r' ∧ x.Alike v ∧
      (whole.ticked n).1 = (run.ticked n).1 + ((f a w).ticked n).1 := by
  obtain ⟨ticks,ends⟩ := alike.ticked n
  rw [ticked_andThen ended] at ticks ends
  dsimp only at ticks ends
  -- The second part has only the time that the first has left, and a run that ends takes no more when given more.
  have enough := ticked_le (f a w) (n - (run.ticked n).1)
  cases rest : ((f a w).ticked (n - (run.ticked n).1)).2 with
  | waiting x m =>
    rw [rest,ended'] at ends
    exact ends.elim
  | done r x =>
    rw [rest,ended'] at ends
    have shorter := ticked_of_le rest (enough.trans (Nat.sub_le ..))
    rw [← shorter] at rest ticks
    exact ⟨r,x,rest,ends.1,ends.2,ticks⟩

end Run

namespace Simulation

variable (s : Session) (program : Program)

theorem step_settleIn (w : World) (m : World → Run Flow) (ticks : Nat) :
    step ⟨s.settleIn program (.waiting w m),ticks⟩ = ⟨s.settleIn program (Run.waiting w m).tick,ticks + 1⟩ := by
  have moved : Session.gliding ((s.settleIn program (.waiting w m)).draw (·.update tick)) =
      (w.sprite.update tick).gliding := rfl
  unfold step Run.tick
  dsimp only
  rw [moved]
  cases moving : (w.sprite.update tick).gliding with
  | true => rfl
  | false =>
    rw [moving] at moved
    rw [if_neg Bool.false_ne_true,if_neg Bool.false_ne_true]
    refine congrArg (Simulation.mk · (ticks + 1)) ?_
    show (if Session.gliding ((s.settleIn program (.waiting w m)).draw (·.update tick)) && _ then _ else _) = _
    rw [moved]
    rfl

theorem settleWithin_settleIn (run : Run Flow) (ticks n : Nat) :
    settleWithin ⟨s.settleIn program run,ticks⟩ n =
      ⟨s.settleIn program (run.ticked n).2,ticks + (run.ticked n).1⟩ := by
  induction n generalizing run ticks with
  | zero => rfl
  | succ n ih =>
    cases run with
    | done r w => rfl
    | waiting w m =>
      have later := ih (Run.waiting w m).tick (ticks + 1)
      rw [← step_settleIn] at later
      show settleWithin (step _) n = _
      rw [later,Run.ticked_waiting,Nat.add_right_comm,Nat.add_assoc]

end Simulation

/-! ### Trees that were moved -/

mutual

theorem Expr.bare_moved (d : Shift) : ∀ e : Expr, (e.moved d).bare = e.bare
  | .assign _ value _ => congrArg (Expr.assign _ · _) (value.bare_moved d)
  | .binary _ left right _ => congrArg₂ (Expr.binary _ · · _) (left.bare_moved d) (right.bare_moved d)
  | .call callee args _ => congrArg₂ (Expr.call · · _) (callee.bare_moved d) (Expr.bareAll_moved d args)
  | .grouping inner _ => congrArg (Expr.grouping · _) (inner.bare_moved d)
  | .literal _ _ => rfl
  | .logical _ left right _ => congrArg₂ (Expr.logical _ · · _) (left.bare_moved d) (right.bare_moved d)
  | .unary _ operand _ => congrArg (Expr.unary _ · _) (operand.bare_moved d)
  | .var _ _ => rfl
  | .array items _ => congrArg (Expr.array · _) (Expr.bareAll_moved d items)
  | .index target position _ => congrArg₂ (Expr.index · · _) (target.bare_moved d) (position.bare_moved d)

theorem Expr.bareAll_moved (d : Shift) : ∀ es : List Expr, Expr.bareAll (Expr.movedAll d es) = Expr.bareAll es
  | [] => rfl
  | e :: es => congrArg₂ List.cons (e.bare_moved d) (Expr.bareAll_moved d es)

end

theorem Expr.bare_movedOption (d : Shift) (e : Option Expr) :
    (e.map (Expr.moved d)).map Expr.bare = e.map Expr.bare := by
  cases e with
  | none => rfl
  | some e => exact congrArg some (e.bare_moved d)

mutual

theorem Stmt.bare_moved (d : Shift) : ∀ s : Stmt, (s.moved d).bare = s.bare
  | .block body _ => congrArg (Stmt.block · _) (Stmt.bareAll_moved d body)
  | .expression value _ => congrArg (Stmt.expression · _) (value.bare_moved d)
  | .function name params body _ => by
    rw [Stmt.moved,Stmt.bare,Stmt.bare,Stmt.bareAll_moved d body,List.map_map]
    rfl
  | .branch test yes no _ => by
    rw [Stmt.moved,Stmt.bare,Stmt.bare,test.bare_moved d,yes.bare_moved d,Stmt.bareOption_moved d no]
  | .giveBack value _ => congrArg (Stmt.giveBack · _) (Expr.bare_movedOption d value)
  | .var _ initial _ => congrArg (Stmt.var _ · _) (Expr.bare_movedOption d initial)
  | .loop test body _ => congrArg₂ (Stmt.loop · · _) (test.bare_moved d) (body.bare_moved d)

theorem Stmt.bareOption_moved (d : Shift) :
    ∀ s : Option Stmt, Stmt.bareOption (Stmt.movedOption d s) = Stmt.bareOption s
  | none => rfl
  | some s => congrArg some (s.bare_moved d)

theorem Stmt.bareAll_moved (d : Shift) : ∀ ss : List Stmt, Stmt.bareAll (Stmt.movedAll d ss) = Stmt.bareAll ss
  | [] => rfl
  | s :: ss => congrArg₂ List.cons (s.bare_moved d) (Stmt.bareAll_moved d ss)

end

namespace Program

theorem compile_not_else {source : String} {program : Program} (compiles : compile source = .ok program) :
    ∀ token ∈ (Token.scan source).tokens.head?, token.kind ≠ .kwElse := by
  intro token first isElse
  obtain ⟨items,each,texts,_⟩ := derives_of_ofTokens (compile_ok compiles).1
  obtain ⟨later,tokens⟩ := List.head?_eq_some_iff.mp first
  rw [tokens,List.takeWhile_cons_of_pos (by simp [isElse])] at texts
  cases items with
  | nil => cases texts
  | cons item items =>
    have opens := (each item (List.mem_cons_self ..)).opens.append (items.map Prod.fst).flatten
    exact opens.not_begins (by decide) ⟨token,_,texts.symm,isElse⟩

/-- Two texts that are programs are one together, with the statements of both. -/
theorem compile_both {a b : String} {first second : Program} (compiles : compile a = .ok first)
    (compiles' : compile b = .ok second) :
    ∃ later, compile (a ++ "\n" ++ b) = .ok ⟨first.statements ++ later⟩ ∧
      Stmt.bareAll later = Stmt.bareAll second.statements := by
  refine ⟨(second.moved (shiftBehind a)).statements,?_,?_⟩
  · rw [compile_behind a b compiles (compile_not_else compiles'),compiles']
    rfl
  · show Stmt.bareAll (second.statements.map (Stmt.moved (shiftBehind a))) = _
    rw [← Stmt.movedAll_eq_map,Stmt.bareAll_moved]

end Program

namespace Session

/-- The session in which a line is started: a run that waits is stopped, and the library is there. -/
def forLine (s : Session) : Session :=
  let stopped := { s.abandon with diagnostics := [] }
  match stopped.phase with
  | .idle => stopped.refresh
  | _ => stopped

theorem runLine_eq (s : Session) {source : String} {program : Program}
    (compiles : Program.compile source = .ok program) : s.runLine source = s.forLine.start program := by
  unfold runLine forLine
  rw [compiles]
  dsimp only
  cases s.abandon.phase <;> rfl

theorem Sound.forLine_unasked {s : Session} (sound : s.Sound) : s.forLine.world.monitor.killRequested = false := by
  unfold forLine
  dsimp only
  split
  · rfl
  · exact sound.abandon.1.unasked

theorem forLine_ended (s : Session) (program : Program) {r : Except Interruption Flow} {w : World}
    (unasked : w.monitor.killRequested = false) :
    (s.forLine.settleIn program (.done r w)).forLine =
      { s.forLine with world := w, phase := .finished program (.ofResult r) } := by
  have clean : s.forLine.diagnostics = [] := by
    unfold forLine
    dsimp only
    split <;> rfl
  have world : { w with monitor := { w.monitor with killRequested := false } } = w := by rw [← unasked]
  have settled : s.forLine.settleIn program (.done r w) =
      { s.forLine with world := w, phase := .finished program (.ofResult r) } :=
    congrArg (fun world => { s.forLine with world := world, phase := .finished program (.ofResult r) }) world
  rw [settled]
  show Session.mk s.forLine.config w (.finished program (.ofResult r)) [] = ⟨_,_,_,s.forLine.diagnostics⟩
  rw [clean]

theorem settleIn_completed {s : Session} {program : Program} {run : Run Flow}
    (completed : (s.settleIn program run).outcome? = some .completed) : ∃ flow w, run = .done (.ok flow) w := by
  cases run with
  | waiting w m => cases completed
  | done r w =>
    cases r with
    | ok flow => exact ⟨flow,w,rfl⟩
    | error e => cases e <;> cases completed

theorem settleIn_stopped {s : Session} {program : Program} {run : Run Flow}
    (stopped : (s.settleIn program run).state ≠ .suspended) : ∃ r w, run = .done r w := by
  cases run with
  | waiting w m => exact absurd rfl stopped
  | done r w => exact ⟨r,w,rfl⟩

theorem settleIn_view (s : Session) (program other : Program) {r r' : Except Interruption Flow} {w v : World}
    (ends : SameEnd r r') (alike : w.Alike v) (home : w.monitor.scope = some Store.global)
    (home' : v.monitor.scope = some Store.global) :
    (s.settleIn program (.done r w)).view = (s.settleIn other (.done r' v)).view := by
  have vars : (v.store.visible (v.monitor.scope.getD Store.global)).map (Store.Variable.respan Span.forget) =
      (w.store.visible (w.monitor.scope.getD Store.global)).map (Store.Variable.respan Span.forget) := by
    rw [home,home']
    exact alike.visible Store.global
  exact (View.mk.injEq ..).mpr
    ⟨rfl,alike.printed.symm,congrArg some ends.symm,vars.symm,alike.store.symm,alike.sprite.symm⟩

end Session

namespace Simulation

variable {sim : Simulation}

theorem runLine_ticked (sim : Simulation) {source : String} {program : Program}
    (compiles : Program.compile source = .ok program) :
    let run := (program.script sim.session.forLine.config sim.session.forLine.world).ticked Word.count
    sim.runLine source = ⟨sim.session.forLine.settleIn program run.2,sim.ticks + run.1⟩ := by
  unfold runLine settle
  rw [sim.session.runLine_eq compiles]
  exact settleWithin_settleIn _ _ _ _ _

/-- Entering two lines one by one or at once comes to the same, whatever the host has done before: if the first has no
`return` outside of a function and completes, then the lines printed, the outcome, the variables and what they lead to,
the turtle and the ticks that passed are the same at the end, spans aside. -/
theorem runLine_runLine (config : Config) (calls : List HostCall)
    (reached : sim.session = calls.foldl Session.apply (.ofConfig config)) (a b : String) (first second : Program)
    (compiles : Program.compile a = .ok first) (compiles' : Program.compile b = .ok second)
    (free : first.givesBack = false) (completed : (sim.runLine a).session.outcome? = some .completed)
    (returned : (sim.runLine (a ++ "\n" ++ b)).session.state ≠ .suspended) :
    let lines := (sim.runLine a).runLine b
    let whole := sim.runLine (a ++ "\n" ++ b)
    lines.session.view = whole.session.view ∧ lines.ticks = whole.ticks := by
  intro lines whole
  obtain ⟨later,compiled,same⟩ := Program.compile_both compiles compiles'
  let s := sim.session.forLine
  let both : Program := ⟨first.statements ++ later⟩
  let run := first.script s.config s.world
  have entered := sim.runLine_ticked compiles
  have together : whole = ⟨s.settleIn both ((both.script s.config s.world).ticked Word.count).2,_⟩ :=
    sim.runLine_ticked compiled
  have seam := script_seam s.config free (show both.statements = first.statements ++ later from rfl) same s.world
  -- The first line has ended, in a world in which nobody has asked to stop.
  obtain ⟨flow,w,ended⟩ : ∃ flow w, (run.ticked Word.count).2 = .done (.ok flow) w := by
    rw [entered] at completed
    exact Session.settleIn_completed completed
  have unasked : w.monitor.killRequested = false := by
    have sound : sim.session.Sound := by
      rw [reached]
      exact (calls_ofSession (Session.ofConfig_sound config) calls).1
    have obeys := (script_obedient s.config first s.world).ticked Word.count
    rw [show s.world.monitor.killRequested = false from sound.forLine_unasked] at obeys
    rw [show ((first.script s.config s.world).ticked Word.count).2 = _ from ended] at obeys
    exact obeys
  obtain ⟨r',v,ended'⟩ : ∃ r v, ((both.script s.config s.world).ticked Word.count).2 = .done r v := by
    have stopped : whole.session.state ≠ .suspended := returned
    rw [together] at stopped
    exact Session.settleIn_stopped stopped
  obtain ⟨r,x,last,ends,worlds,ticks⟩ := seam.seam ended ended'
  -- The second line starts where the first has ended.
  have left : (sim.runLine a).session.forLine =
      { s with world := w, phase := .finished first (.ofResult (.ok flow)) } := by
    rw [entered,show ((first.script s.config s.world).ticked Word.count).2 = _ from ended]
    exact sim.session.forLine_ended first unasked
  have next : lines = _ := (sim.runLine a).runLine_ticked compiles'
  rw [left] at next
  dsimp only at next
  rw [last] at next
  rw [next,together,ended']
  refine ⟨s.settleIn_view second both ends worlds ?_ ?_,?_⟩
  · exact second.script_homes s.config w r x (Run.ticked_ends last)
  · exact both.script_homes s.config s.world r' v (Run.ticked_ends ended')
  · rw [entered]
    show sim.ticks + (run.ticked Word.count).1 + _ = sim.ticks + ((both.script s.config s.world).ticked Word.count).1
    rw [ticks,Nat.add_assoc]

/-- Two lines with a function between them, where the second line goes wrong behind what it prints. -/
theorem runLine_runLine_failing :
    let sim : Simulation := .ofConfig {}
    let a := "var x = \"one\"; function f() \x7b return x; \x7d"
    let b := "print(f()); x = f() + y; print(x);"
    (sim.runLine a).session.outcome? = some .completed ∧
      ((sim.runLine a).runLine b).session.view = (sim.runLine (a ++ "\n" ++ b)).session.view ∧
      ((sim.runLine a).runLine b).ticks = (sim.runLine (a ++ "\n" ++ b)).ticks := by
  intro sim a b
  obtain ⟨first,compiles⟩ := Program.compiled_of_isOk a (by decide +kernel)
  obtain ⟨second,compiles'⟩ := Program.compiled_of_isOk b (by decide +kernel)
  have free : first.givesBack = false := by
    have all : ∀ program ∈ (Program.compile a).toOption, program.givesBack = false := by decide +kernel
    exact all first (by rw [compiles]; rfl)
  have completed : (sim.runLine a).session.outcome? = some .completed := by decide +kernel
  have returned : (sim.runLine (a ++ "\n" ++ b)).session.state ≠ .suspended := by decide +kernel
  exact ⟨completed,runLine_runLine {} [] rfl a b first second compiles compiles' free completed returned⟩

end Simulation

end TurtleScript
