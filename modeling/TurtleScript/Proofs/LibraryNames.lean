import TurtleScript.Proofs.LawfulSessions
import TurtleScript.Proofs.Moments
import TurtleScript.Proofs.Protection

/-!
Library names are immutable. A law that programs keep holds at every moment of an execution
(`Reaches.under`), so at every moment a library name is read as what was installed, and whoever tries to
bind it or to assign to it fails (`Moment.Immutable`). This is so in every session with a program, whatever
its host has done to it (`library_immutable`).
-/

namespace TurtleScript

open Script

theorem Run.Keeps.ends {α : Type} {law : Law} (free : ∀ x, law.turtle x) {before : World}
    {post : Scene → α → Prop} {run : Run α} (keeps : run.Keeps law before post)
    {result : Except Interruption α} {v : World} (ends : run.Ends result v) :
    v.scope = before.scope ∧ law.Step before.scene v.scene ∧ ∀ a, result = .ok a → post v.scene a := by
  induction ends with
  | done => exact keeps
  | waiting handed _ ih => exact ih (keeps.2.2.2 _ handed (free _))

/-- A moment under a law. Where a function is called, function and arguments are such as the law allows,
and they fit together. -/
structure Moment.Under (law : Law) (m : Moment) : Prop where
  inside : law.At m.world
  called : ∀ {c : Closure} {args : List Value}, m.task = .call c args →
    law.scope m.world.scene c.scope ∧ law.FitsAll m.world.scene args ∧ args.length = c.params.length

section
variable {law : Law} {config : Config}

theorem Law.Kept.invokeInside (kept : law.Kept) (config : Config) (n : Nat) :
    law.CallsKeep (invokeInside config n) :=
  kept.invokeWithin config _

/-- Where a moment is under a law, so are those that begin while its task is executed. -/
theorem Begins.under (kept : law.Kept) (free : ∀ x, law.turtle x) {m m' : Moment} (begins : Begins config m m')
    (under : m.Under law) : m'.Under law := by
  have inside := under.inside
  have evaluated : ∀ {n : Nat} {e : Expr} {w v : World} {a : Value}, law.At w →
      (e.eval (invokeInside config n) w).Ends (.ok a) v → law.At v ∧ law.Step w.scene v.scene ∧ law.Fits v.scene a := by
    intro n e w v a inside ended
    obtain ⟨scope,step,fits⟩ := (kept.eval (kept.invokeInside config n) e inside).ends free ended
    exact ⟨inside.later scope step,step,fits a rfl⟩
  have executed : ∀ {n : Nat} {s : Stmt} {w v : World} {flow : Flow},
      (s.exec config (invokeInside config n) w).Ends (.ok flow) v → law.At w → law.At v := by
    intro n s w v flow ended inside
    obtain ⟨scope,step,_⟩ := (kept.exec (kept.invokeInside config n) config s inside).ends free ended
    exact inside.later scope step
  have passed : ∀ {w v : World}, law.At w → (checkpoint w).Ends (.ok ()) v → law.At v := by
    intro w v inside ended
    obtain ⟨scope,step,_⟩ := (kept.checkpoint inside).ends free ended
    exact inside.later scope step
  cases begins with
  | right ended => exact ⟨(evaluated inside ended).1,fun same => nomatch same⟩
  | decided ended _ => exact ⟨(evaluated inside ended).1,fun same => nomatch same⟩
  | arguments ended => exact ⟨(evaluated inside ended).1,fun same => nomatch same⟩
  | call ended values fit =>
    obtain ⟨first,_,function⟩ := evaluated inside ended
    obtain ⟨scope,step,args⟩ := (kept.evalAll (kept.invokeInside config _) _ first).ends free values
    refine ⟨first.later scope step,fun same => ?_⟩
    cases same
    exact ⟨function.later step.2,args _ rfl,fit⟩
  | position ended => exact ⟨(evaluated inside ended).1,fun same => nomatch same⟩
  | others ended => exact ⟨(evaluated inside ended).1,fun same => nomatch same⟩
  | enter ended => exact ⟨passed inside ended,fun same => nomatch same⟩
  | yes ended _ => exact ⟨(evaluated inside ended).1,fun same => nomatch same⟩
  | no ended _ => exact ⟨(evaluated inside ended).1,fun same => nomatch same⟩
  | block made =>
    obtain ⟨_,step,allowed⟩ := (kept.newScope inside inside.2).ends free made
    exact ⟨⟨step.1,allowed _ rfl⟩,fun same => nomatch same⟩
  | next ended => exact ⟨executed ended inside,fun same => nomatch same⟩
  | round ended _ => exact ⟨(evaluated inside ended).1,fun same => nomatch same⟩
  | turn ended _ body => exact ⟨executed body (evaluated inside ended).1,fun same => nomatch same⟩
  | again ended => exact ⟨passed inside ended,fun same => nomatch same⟩
  | body room made bound =>
    obtain ⟨allowed,fits,_⟩ := under.called rfl
    obtain ⟨scope,step,new⟩ := (kept.newScope inside allowed).ends free made
    have first := inside.later scope step
    obtain ⟨_,further,_⟩ := (kept.bindAll _ first (new _ rfl) ((fits.later step.2).zip _)).ends free bound
    exact ⟨⟨further.1,further.2 _ (new _ rfl)⟩,fun same => nomatch same⟩
  | _ => exact ⟨inside,fun same => nomatch same⟩

theorem Reaches.under (kept : law.Kept) (free : ∀ x, law.turtle x) {m m' : Moment} (reaches : Reaches config m m')
    (under : m.Under law) : m'.Under law := by
  induction reaches with
  | refl => exact under
  | tail _ begins ih => exact begins.under kept free ih

end

/-- The run comes to an end, and only to such ends. -/
def Run.EndsWith {α : Type} (run : Run α) (P : Except Interruption α → World → Prop) : Prop :=
  (∃ result v, run.Ends result v) ∧ ∀ result v, run.Ends result v → P result v

theorem Run.exists_ends {α : Type} (run : Run α) : ∃ result v, run.Ends result v := by
  induction run with
  | done result w => exact ⟨result,w,.done _ _⟩
  | waiting w resume ih =>
    obtain ⟨result,v,ends⟩ := ih w
    exact ⟨result,v,.waiting (.refl w) ends⟩

theorem Run.EndsWith.of_all {α : Type} {run : Run α} {P : Except Interruption α → World → Prop}
    (all : ∀ result v, run.Ends result v → P result v) : run.EndsWith P := ⟨run.exists_ends,all⟩

/-- A run does what another one does, and behind its success fails because a name belongs to the library,
without a change to any binding. -/
def Refused {α β : Type} (name : String) (place span : Span) (first : Run α) (whole : Run β) : Prop :=
  whole.EndsWith fun result v =>
    (∃ e, first.Ends (.error e) v ∧ result = .error (e.locate span)) ∨
      ∃ a u, first.Ends (.ok a) u ∧ v.store.frames = u.store.frames ∧
        result = .error (.failed ⟨.protectedName name,some place⟩)

section
variable {config : Config} {name : String} {value : Value} {w : World} {id : FrameId}

theorem alter_refused {α : Type} {f : Store → Except Fault α} {fault : Fault} (fails : f w.store = .error fault)
    (g : α → Store → Store) :
    ofAction (do Action.alter (g (← Action.inquire f))) w = .done (.error (.failed { fault := fault })) w := by
  have contained : ∀ holder, (Action.alter (g holder)).Contained := fun _ => Action.contained_alter _
  rw [ofAction_eq (Action.contained_bind (Action.contained_inquire f) contained),Action.onScene_bind _ contained,
    Action.onScene_inquire,show f w.scene.store = .error fault from fails]
  rfl

theorem define_refused (guarded : w.store.Guarded config) (entry : (name,value) ∈ Library.installed config)
    (there : id < w.store.frames.size) (a : Value) :
    ofAction (Action.define id name a) w = .done (.error (.failed { fault := .protectedName name })) w :=
  alter_refused (guarded.definable_installed entry there) fun _ store => store.bind id { name := name, value := a }

theorem assign_refused (guarded : w.store.Guarded config) (entry : (name,value) ∈ Library.installed config)
    (there : id < w.store.frames.size) (a : Value) :
    ofAction (Action.assign id name a) w = .done (.error (.failed { fault := .protectedName name })) w :=
  alter_refused (guarded.assignable_installed entry there) fun holder store => store.put holder name a

theorem eval_installed (guarded : w.store.Guarded config) (entry : (name,value) ∈ Library.installed config)
    (there : w.scope < w.store.frames.size) (invoke : Invoke) (span : Span) :
    (Expr.var name span).eval invoke w = .done (.ok value) w := by
  have found : (Action.inquire (·.get w.scope name)).onScene w.scene = (.ok value,w.scene) := by
    rw [Action.onScene_inquire]
    exact congrArg (·,w.scene) (guarded.get_installed entry there)
  have looked : inScope (fun scope => Action.inquire (·.get scope name)) w = .done (.ok value) w := by
    show ofAction (Action.inquire (·.get w.scope name)) w = _
    rw [ofAction_eq (Action.contained_inquire _),found]
    rfl
  rw [Expr.eval]
  show (inScope _ w).locate span = _
  rw [looked]
  rfl

theorem checkpoint_killed {e : Interruption} {v : World} (ended : (checkpoint w).Ends (.error e) v) :
    e = .killed := by
  have asked : ∀ {x : World}, (checkKilled x).Ends (.error e) v → e = .killed := by
    intro x ended
    unfold checkKilled at ended
    split at ended
    · cases (Run.ends_done.mp ended).1
      rfl
    · cases (Run.ends_done.mp ended).1
  rcases (Run.ends_andThen _ _ _ v).mp ended with ⟨_,x,_,rest⟩ | ⟨_,same,first⟩
  · rcases (Run.ends_andThen _ _ _ v).mp rest with ⟨_,y,_,waiting⟩ | ⟨_,_,told⟩
    · unfold awaitTurtle at waiting
      split at waiting
      · obtain ⟨z,_,resumed⟩ := Run.ends_waiting.mp waiting
        exact asked resumed
      · cases (Run.ends_done.mp waiting).1
    · cases (Run.ends_done.mp told).1
  · cases same
    exact asked first

variable {n : Nat}

theorem assign_name_refused (inside : (protection config).At w) (entry : (name,value) ∈ Library.installed config)
    (e : Expr) (span : Span) :
    Refused name span span (e.eval (invokeInside config n) w)
      ((Expr.assign name e span).eval (invokeInside config n) w) := by
  refine .of_all fun result v located => ?_
  rw [Expr.eval] at located
  obtain ⟨inner,ended,rfl⟩ := (Run.ends_locate _ _ _ _).mp located
  rcases (Run.ends_andThen _ _ _ v).mp ended with ⟨a,u,evaluated,rest⟩ | ⟨e,rfl,failed⟩
  · obtain ⟨scope,step,_⟩ :=
      (protection_kept.eval (protection_kept.invokeInside config n) e inside).ends (fun _ => trivial) evaluated
    have there := (inside.later scope step).2
    have refused : inScope (Action.assign · name a) u = _ := assign_refused step.1 entry there a
    rcases (Run.ends_andThen _ _ _ v).mp rest with ⟨_,x,assigned,_⟩ | ⟨e,rfl,failed⟩
    · rw [refused,Run.ends_done] at assigned
      cases assigned.1
    · rw [refused,Run.ends_done] at failed
      obtain ⟨same,rfl⟩ := failed
      cases same
      exact .inr ⟨a,v,evaluated,rfl,rfl⟩
  · exact .inl ⟨e,failed,rfl⟩

theorem define_ends (inside : (protection config).At w) (entry : (name,value) ∈ Library.installed config)
    (place span : Span) (a : Value) {result : Except Interruption Flow} {v : World}
    (ended : ((do
      locate place (inScope (Action.define · name a))
      return .next : Script Flow) w).Ends result v) :
    v = w ∧ result.mapError (·.locate span) = .error (.failed ⟨.protectedName name,some place⟩) := by
  have refused : inScope (Action.define · name a) w = _ := define_refused inside.1 entry inside.2 a
  rcases (Run.ends_andThen _ _ _ v).mp ended with ⟨_,x,defined,_⟩ | ⟨e,rfl,failed⟩
  · obtain ⟨inner,attempt,same⟩ := (Run.ends_locate _ _ _ _).mp defined
    rw [refused,Run.ends_done] at attempt
    rw [attempt.1] at same
    cases same
  · obtain ⟨inner,attempt,same⟩ := (Run.ends_locate _ _ _ _).mp failed
    rw [refused,Run.ends_done] at attempt
    rw [attempt.1] at same
    cases same
    exact ⟨attempt.2,rfl⟩

theorem var_name_refused (inside : (protection config).At w) (entry : (name,value) ∈ Library.installed config)
    (place : Span) (initial : Option Expr) (span : Span) :
    Refused name place span ((do checkpoint; Expr.evalOption (invokeInside config n) initial : Script Value) w)
      ((Stmt.var ⟨name,place⟩ initial span).exec config (invokeInside config n) w) := by
  refine .of_all fun result v ended => ?_
  rw [Stmt.exec] at ended
  rcases (Run.ends_andThen _ _ _ v).mp ended with ⟨_,u,passed,located⟩ | ⟨e,rfl,failed⟩
  · obtain ⟨inner,rest,rfl⟩ := (Run.ends_locate _ _ _ _).mp located
    obtain ⟨scope,step,_⟩ := (protection_kept.checkpoint inside).ends (fun _ => trivial) passed
    have first := inside.later scope step
    rcases (Run.ends_andThen _ _ _ v).mp rest with ⟨a,x,evaluated,defining⟩ | ⟨e,rfl,failed⟩
    · obtain ⟨scope,step,_⟩ := (protection_kept.evalOption (protection_kept.invokeInside config n) initial first).ends
        (fun _ => trivial) evaluated
      obtain ⟨rfl,failed⟩ := define_ends (first.later scope step) entry place span a defining
      exact .inr ⟨a,v,(Run.ends_andThen _ _ _ _).mpr (.inl ⟨_,u,passed,evaluated⟩),rfl,failed⟩
    · exact .inl ⟨e,(Run.ends_andThen _ _ _ _).mpr (.inl ⟨_,u,passed,failed⟩),rfl⟩
  · cases checkpoint_killed failed
    exact .inl ⟨_,(Run.ends_andThen _ _ _ _).mpr (.inr ⟨_,rfl,failed⟩),rfl⟩

theorem function_name_refused (inside : (protection config).At w) (entry : (name,value) ∈ Library.installed config)
    (place : Span) (params : List Name) (body : List Stmt) (span : Span) :
    Refused name place span (checkpoint w)
      ((Stmt.function ⟨name,place⟩ params body span).exec config (invokeInside config n) w) := by
  refine .of_all fun result v ended => ?_
  rw [Stmt.exec] at ended
  rcases (Run.ends_andThen _ _ _ v).mp ended with ⟨_,u,passed,located⟩ | ⟨e,rfl,failed⟩
  · obtain ⟨inner,rest,rfl⟩ := (Run.ends_locate _ _ _ _).mp located
    obtain ⟨scope,step,_⟩ := (protection_kept.checkpoint inside).ends (fun _ => trivial) passed
    have first := inside.later scope step
    let made : World := { u with store := (u.store.newClosure u.scope ⟨name,place⟩ params body).2 }
    have after : (protection config).At made :=
      first.later rfl (protection_kept.newClosure u.scope ⟨name,place⟩ params body first.1)
    obtain ⟨rfl,failed⟩ := define_ends after entry place span _ rest
    exact .inr ⟨_,u,passed,rfl,failed⟩
  · cases checkpoint_killed failed
    exact .inl ⟨_,failed,rfl⟩

/-! Parameters are bound one after the other in the new scope of a call. -/

theorem bindAll_append_ends (id : FrameId) (first second : List (Name × Value)) {w v : World}
    {result : Except Interruption Unit} (ended : (bindAll id (first ++ second) w).Ends result v) :
    (∃ u, (bindAll id first w).Ends (.ok ()) u ∧ (bindAll id second u).Ends result v) ∨
      ∃ e, result = .error e ∧ (bindAll id first w).Ends (.error e) v := by
  induction first generalizing w with
  | nil => exact .inl ⟨w,.done _ _,ended⟩
  | cons binding rest ih =>
    rcases (Run.ends_andThen _ _ _ v).mp ended with ⟨_,u,bound,others⟩ | ⟨e,rfl,failed⟩
    · rcases ih others with ⟨x,done,behind⟩ | ⟨e,same,failed⟩
      · exact .inl ⟨x,(Run.ends_andThen _ _ _ _).mpr (.inl ⟨_,u,bound,done⟩),behind⟩
      · exact .inr ⟨e,same,(Run.ends_andThen _ _ _ _).mpr (.inl ⟨_,u,bound,failed⟩)⟩
    · exact .inr ⟨e,rfl,(Run.ends_andThen _ _ _ _).mpr (.inr ⟨e,rfl,failed⟩)⟩

theorem define_frame {id other : FrameId} (different : other ≠ id) {name : String} {a : Value} {w v : World}
    {result : Except Interruption Unit} (ended : (ofAction (Action.define id name a) w).Ends result v) :
    v.store.frame other = w.store.frame other := by
  rw [ofAction_eq (Action.contained_define id name a),Run.ends_done] at ended
  rw [ended.2]
  unfold Action.define
  rw [Action.onScene_bind _ fun _ => Action.contained_alter _,Action.onScene_inquire]
  cases w.scene.store.definable id name with
  | ok _ => exact Store.frame_changeFrame_of_ne different _
  | error fault => rfl

theorem bindAll_frame {id other : FrameId} (different : other ≠ id) (bindings : List (Name × Value)) {w v : World}
    {result : Except Interruption Unit} (ended : (bindAll id bindings w).Ends result v) :
    v.store.frame other = w.store.frame other := by
  induction bindings generalizing w with
  | nil => rw [(Run.ends_done.mp ended).2]
  | cons binding rest ih =>
    rcases (Run.ends_andThen _ _ _ v).mp ended with ⟨_,u,bound,others⟩ | ⟨e,rfl,failed⟩
    · obtain ⟨_,defined,_⟩ := (Run.ends_locate _ _ _ _).mp bound
      rw [ih others,define_frame different defined]
    · obtain ⟨_,defined,_⟩ := (Run.ends_locate _ _ _ _).mp failed
      exact define_frame different defined

theorem bindAll_refused (inside : (protection config).At w) (entry : (name,value) ∈ Library.installed config)
    {args : List Value} (fits : (protection config).FitsAll w.scene args) {before after : List Name} {place : Span}
    (fit : args.length = (before ++ ⟨name,place⟩ :: after).length) (there : id < w.store.frames.size)
    {result : Except Interruption Unit} {v : World}
    (ended : (bindAll id ((before ++ ⟨name,place⟩ :: after).zip args) w).Ends result v) :
    (∃ e, result = .error e ∧ (bindAll id (before.zip args) w).Ends (.error e) v) ∨
      result = .error (.failed ⟨.protectedName name,some place⟩) := by
  obtain ⟨xs,a,ys,rfl,same⟩ : ∃ xs a ys, args = xs ++ a :: ys ∧ before.length = xs.length := by
    rw [List.length_append,List.length_cons] at fit
    have inside : before.length < args.length := by omega
    refine ⟨args.take before.length,args[before.length],args.drop (before.length + 1),?_,?_⟩
    · rw [← List.drop_eq_getElem_cons inside,List.take_append_drop]
    · rw [List.length_take]
      omega
  have front : before.zip (xs ++ a :: ys) = before.zip xs := by
    have split : (before ++ []).zip (xs ++ a :: ys) = before.zip xs ++ [].zip (a :: ys) := List.zip_append same
    simpa using split
  rw [List.zip_append same,List.zip_cons_cons] at ended
  rw [front]
  rcases bindAll_append_ends id _ _ ended with ⟨u,bound,rest⟩ | failed
  · have fitting : (protection config).FitsAll w.scene ((before.zip xs).map Prod.snd) := by
      rw [← front]
      exact fits.zip before
    obtain ⟨_,step,_⟩ := (protection_kept.bindAll _ inside there fitting).ends (fun _ => trivial) bound
    have refused := define_refused step.1 entry (step.2 _ there) a
    refine .inr ?_
    rcases (Run.ends_andThen _ _ _ v).mp rest with ⟨_,x,defined,_⟩ | ⟨e,rfl,failed⟩
    · obtain ⟨inner,attempt,same⟩ := (Run.ends_locate _ _ _ _).mp defined
      rw [refused,Run.ends_done] at attempt
      rw [attempt.1] at same
      cases same
    · obtain ⟨inner,attempt,same⟩ := (Run.ends_locate _ _ _ _).mp failed
      rw [refused,Run.ends_done] at attempt
      rw [attempt.1] at same
      exact same
  · exact .inl failed

/-- A parameter cannot have a library name: once the ones in front of it are bound, the call fails, and no
scope that was there before has changed. -/
theorem parameter_name_refused (inside : (protection config).At w)
    (entry : (name,value) ∈ Library.installed config) (depth : w.callDepth = n) {c : Closure} {args : List Value}
    (allowed : c.scope < w.store.frames.size) (fits : (protection config).FitsAll w.scene args)
    (fit : args.length = c.params.length) {before after : List Name} {place : Span}
    (params : c.params = before ++ ⟨name,place⟩ :: after) {result : Except Interruption Value} {v : World}
    (ended : (invokeInside config n c args w).Ends result v) :
    (∀ id < w.store.frames.size, v.store.frame id = w.store.frame id) ∧
      (config.maxCallDepth ≤ n ∧ result = .error (.failed { fault := .stackOverflow config.maxCallDepth }) ∨
        (∃ e, ((do bindAll (← newScope c.scope) (before.zip args) : Script Unit) w).Ends (.error e) v ∧
          result = .error e) ∨
        result = .error (.failed ⟨.protectedName name,some place⟩)) := by
  unfold invokeInside at ended
  cases room : config.maxCallDepth - n with
  | zero =>
    rw [room,invokeWithin] at ended
    obtain ⟨rfl,rfl⟩ := Run.ends_done.mp ended
    exact ⟨fun _ _ => rfl,.inl ⟨by omega,rfl⟩⟩
  | succ budget =>
    have free : ¬ config.maxCallDepth ≤ w.callDepth := by omega
    rw [room,invokeWithin] at ended
    rcases (Run.ends_andThen _ _ _ v).mp ended with ⟨_,x,looked,rest⟩ | ⟨_,_,looked⟩
    · obtain ⟨same,rfl⟩ := Run.ends_done.mp looked
      cases same
      simp only [free,if_false] at rest
      rcases (Run.ends_andThen _ _ _ v).mp rest with ⟨id,y,made,calling⟩ | ⟨_,_,made⟩
      · obtain ⟨step,new⟩ := protection_kept.child inside.1 allowed
        obtain ⟨same,rfl⟩ := Run.ends_done.mp made
        cases same
        let entered : World := { x with store := (x.store.child c.scope).2 }
        have first : (protection config).At entered := inside.later rfl step
        have fitting : (protection config).FitsAll entered.scene args := fits.later step.2
        rw [params] at fit calling
        rcases (Run.ends_andThen _ _ _ v).mp calling with ⟨_,u,bound,_⟩ | ⟨e,rfl,failed⟩
        · rcases bindAll_refused first entry fitting fit new bound with ⟨_,same,_⟩ | same
          · cases same
          · cases same
        · refine ⟨fun id old => ?_,.inr ?_⟩
          · have different : id ≠ x.store.frames.size := Nat.ne_of_lt old
            rw [bindAll_frame different _ failed]
            exact (Store.frame_child _ _).trans (if_neg different)
          · rcases bindAll_refused first entry fitting fit new failed with ⟨_,same,inFront⟩ | same
            · cases same
              exact .inl ⟨e,(Run.ends_andThen _ _ _ _).mpr (.inl ⟨_,_,made,inFront⟩),rfl⟩
            · cases same
              exact .inr rfl
      · cases (Run.ends_done.mp made).1
    · cases (Run.ends_done.mp looked).1

end

/-! ### Sessions -/

/-- At a moment a library name stands for what was installed. Assigning to it, declaring it and calling
a function with a parameter of that name fail, without a change to any binding there was. -/
structure Moment.Immutable (config : Config) (name : String) (value : Value) (m : Moment) : Prop where
  read : ∀ span, (Expr.var name span).eval (invokeInside config m.calls) m.world = .done (.ok value) m.world
  assign : ∀ e span, Refused name span span (e.eval (invokeInside config m.calls) m.world)
    ((Expr.assign name e span).eval (invokeInside config m.calls) m.world)
  var : ∀ place initial span,
    Refused name place span
      ((do checkpoint; Expr.evalOption (invokeInside config m.calls) initial : Script Value) m.world)
      ((Stmt.var ⟨name,place⟩ initial span).exec config (invokeInside config m.calls) m.world)
  function : ∀ place params body span, Refused name place span (checkpoint m.world)
    ((Stmt.function ⟨name,place⟩ params body span).exec config (invokeInside config m.calls) m.world)
  /-- Unless too many calls are nested, or a parameter further in front is refused. -/
  parameter : ∀ c args before place after, m.task = .call c args → c.params = before ++ ⟨name,place⟩ :: after →
    (invokeInside config m.calls c args m.world).EndsWith fun result v =>
      (∀ id < m.world.store.frames.size, v.store.frame id = m.world.store.frame id) ∧
        (config.maxCallDepth ≤ m.calls ∧
            result = .error (.failed { fault := .stackOverflow config.maxCallDepth }) ∨
          (∃ e, ((do bindAll (← newScope c.scope) (before.zip args) : Script Unit) m.world).Ends (.error e) v ∧
            result = .error e) ∨
          result = .error (.failed ⟨.protectedName name,some place⟩))

theorem Moment.Under.immutable {config : Config} {m : Moment} (under : m.Under (protection config))
    (counted : m.Counted config) {name : String} {value : Value}
    (entry : (name,value) ∈ Library.installed config) : m.Immutable config name value where
  read := eval_installed under.inside.1 entry under.inside.2 _
  assign := assign_name_refused under.inside entry
  var := var_name_refused under.inside entry
  function := function_name_refused under.inside entry
  parameter c args before place after called params := by
    obtain ⟨allowed,fits,fit⟩ := under.called called
    exact .of_all fun _ _ => parameter_name_refused under.inside entry counted.1 allowed fits fit params

/-- A value that a variable or an array holds. -/
def Store.Holds (store : Store) (a : Value) : Prop :=
  (∃ id, ∃ b ∈ (store.frame id).bindings, b.value = a) ∨ ∃ id, a ∈ store.items id

/-- A world in which the session may start a program: its own, if there is a program in it, or a fresh
one. -/
def Session.StartsIn (s : Session) (w : World) : Prop := s.state ≠ .idle ∧ w = s.world ∨ w = s.refresh.world

theorem Session.phase_ne_idle {s : Session} (loaded : s.state ≠ .idle) : s.phase ≠ .idle := by
  intro idle
  unfold state at loaded
  rw [idle] at loaded
  exact loaded rfl

/-- Whatever a host does to a session and in whatever order: as soon as there is a program in it, the
global scope binds every library name to what was installed, no other scope binds any of them, and in
every scope, those of functions included, they stand for what was installed. At every moment of every
program that is started in a session, attempts to bind a library name or to assign to it are refused. -/
theorem library_immutable (config : Config) (calls : List HostCall) {name : String} {value : Value}
    (entry : (name,value) ∈ Library.installed config) :
    let s := calls.foldl Session.apply (.ofConfig config)
    (s.state ≠ .idle →
      (s.world.store.frame Store.global).find? name = some ⟨name,value,true⟩ ∧
      (∀ id ≠ Store.global, (s.world.store.frame id).find? name = none) ∧
      (∀ id < s.world.store.frames.size, s.world.store.get id name = .ok value) ∧
      s.world.scope < s.world.store.frames.size ∧
      ∀ c, s.world.store.Holds (.function (.declared c)) → c.scope < s.world.store.frames.size) ∧
    ∀ w, s.StartsIn w → ∀ (program : Program) (m : Moment),
      Reaches config (program.beginning w) m → m.Immutable config name value := by
  intro s
  have fresh : ∀ x printed, (protection config).turtle x → (protection config).holds ⟨.initial config,x,printed⟩ :=
    fun _ _ _ => Store.initial_guarded
  have respect : ∀ call ∈ calls, call.Respects (protection config) := by
    intro call _
    cases call with
    | draw f => exact fun _ _ => trivial
    | _ => exact trivial
  have lawful : s.Lawful (protection config) config :=
    (Session.ofConfig_lawful config trivial).calls fresh protection_kept respect
  refine ⟨fun loaded => ?_,fun w starts program m reaches => ?_⟩
  · obtain ⟨guarded,inside⟩ := lawful.loaded (Session.phase_ne_idle loaded)
    refine ⟨guarded.installed entry,guarded.unshadowed entry,fun id => guarded.get_installed entry,inside,?_⟩
    rintro c (⟨id,b,mem,same⟩ | ⟨id,mem⟩)
    · exact guarded.bound id b mem c same
    · exact guarded.items id _ mem c rfl
  · have guarded : w.store.Guarded config := by
      rcases starts with ⟨loaded,rfl⟩ | rfl
      · exact (lawful.loaded (Session.phase_ne_idle loaded)).1
      · exact lawful.refresh_holds fresh
    have beginning : (program.beginning w).Under (protection config) :=
      ⟨⟨guarded,guarded.some_frame⟩,fun same => nomatch same⟩
    have under := reaches.under protection_kept (fun _ => trivial) beginning
    exact under.immutable (reaches.counted ⟨rfl,Nat.zero_le _⟩) entry

/-- A program that hides a library function in a variable of its own and then overwrites it. -/
def overwritingText : String := "var shown = print; print = 1;"

theorem library_immutable_overwriting :
    let s := [HostCall.compile overwritingText,.run].foldl Session.apply (.ofConfig {})
    s.state ≠ .idle ∧ ("print",Value.function (.builtin .print)) ∈ Library.installed {} ∧
      s.world.store.get Store.global "print" = .ok (.function (.builtin .print)) ∧
      ∀ program : Program, (program.beginning s.world).Immutable {} "print" (.function (.builtin .print)) := by
  intro s
  have entry : ("print",Value.function (.builtin .print)) ∈ Library.installed {} := .head _
  have loaded : s.state ≠ .idle := by decide +kernel
  obtain ⟨facts,moments⟩ := library_immutable {} [.compile overwritingText,.run] entry
  obtain ⟨_,_,read,_,_⟩ := facts loaded
  exact ⟨loaded,entry,read Store.global (by decide +kernel),
    fun program => moments s.world (.inl ⟨loaded,rfl⟩) program _ .refl⟩

end TurtleScript
