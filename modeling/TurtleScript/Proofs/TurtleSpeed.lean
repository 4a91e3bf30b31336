import TurtleScript.Proofs.Lockstep
import TurtleScript.Proofs.SpelledNames
import TurtleScript.Proofs.Transparency

/-!
How fast the turtle is makes no difference to what it draws. Whatever a program does to the turtle acts on where it is
bound for, not on where it is (`Stroke.calm`); only `getX` and `getY` tell where it is. So two runs that differ in its
speed, and that use neither of these, end alike once they are settled (`settling_respects`), and however their hosts let
the turtle glide they leave the same behind (`speed_unseen`).
-/

namespace TurtleScript

open TurtleScript.Turtle (Sprite Stroke Point)

/-- The turtle at the end of its way, with nothing said about its speed. -/
def Turtle.Sprite.calm (x : Sprite) : Sprite := { x.stopGlide with speed := 0.0, defaultSpeed := 0.0 }

/-- A move ends at its target and draws a line from where the turtle was bound for, at any speed. -/
theorem Turtle.Sprite.calm_moveTo (x : Sprite) (target : Point) :
    (x.moveTo target).calm = { x.calm with
      position := target
      canvas := { x.canvas with
        segments :=
          if x.penDown && target != x.destination then x.canvas.segments.push ⟨x.destination,target,x.color⟩
          else x.canvas.segments } } := by
  unfold moveTo
  dsimp only
  by_cases fast : 0.0 < x.stopGlide.speed
  · rw [if_pos fast]
    rfl
  · rw [if_neg fast]
    rfl

/-- What is done to a turtle does not depend on how far on its way it is, nor on its speed. -/
theorem Turtle.Stroke.calm {f : Sprite → Sprite} (stroke : Stroke f) (x : Sprite) : (f x).calm = (f x.calm).calm := by
  cases stroke with
  | moveTo target =>
    rw [Sprite.calm_moveTo,Sprite.calm_moveTo]
    rfl
  | forward distance =>
    unfold Sprite.forward
    rw [Sprite.calm_moveTo,Sprite.calm_moveTo]
    rfl
  | _ => rfl

/-- The pairing of runs that differ in the speed of the turtle and in how far it is on its way. -/
def speedAside : Pairing where
  span := id
  name name := name ≠ Builtin.getX.name ∧ name ≠ Builtin.getY.name
  turtle x y := y.calm = x.calm

theorem speedAside_fair : speedAside.Fair where
  heading {x y} same := show y.calm.heading = x.calm.heading from congrArg Sprite.heading same
  polygon {x y} same := show y.calm.polygon = x.calm.polygon from congrArg Sprite.polygon same
  position named _ := named.elim (fun allowed => absurd rfl allowed.1) fun allowed => absurd rfl allowed.2
  stroke {f x y} stroke same := by
    show (f y).calm = (f x).calm
    rw [stroke.calm y,stroke.calm x,same]

/-- Paired worlds in which nobody has asked to stop. -/
structure Undisturbed (w v : World) : Prop where
  worlds : speedAside.Worlds w v
  unasked : w.monitor.killRequested = false

namespace Run

variable {α β : Type} {kind : α → α → Prop} {other : β → β → Prop} {run run' : Run α}

/-- Runs that come to results of a kind and to paired worlds in the end. -/
structure EndsLike (kind : α → α → Prop) (run run' : Run α) : Prop where
  results : speedAside.Results kind run.settled.1 run'.settled.1
  worlds : Undisturbed run.settled.2 run'.settled.2

theorem EndsLike.of_settled {first second : Run α} (ends : run.EndsLike kind run') (left : first.settled = run.settled)
    (right : second.settled = run'.settled) : first.EndsLike kind second := by
  refine ⟨?_,?_⟩
  · rw [left,right]
    exact ends.results
  · rw [left,right]
    exact ends.worlds

theorem endsLike_done {r r' : Except Interruption α} {w v : World} (results : speedAside.Results kind r r')
    (worlds : Undisturbed w v) : (done r w).EndsLike kind (done r' v) :=
  ⟨results,worlds⟩

theorem EndsLike.andThen {f g : α → World → Run β} (first : run.EndsLike kind run')
    (second : ∀ a b w v, kind a b → Undisturbed w v → (f a w).EndsLike other (g b v)) :
    (run.andThen f).EndsLike other (run'.andThen g) := by
  have left := run.settled_andThen f
  have right := run'.settled_andThen g
  obtain ⟨results,after⟩ := first
  rcases out : run.settled with ⟨r,x⟩
  rcases out' : run'.settled with ⟨r',y⟩
  rw [out] at left results after
  rw [out'] at right results after
  cases results with
  | ok paired => exact (second _ _ x y paired after).of_settled left right
  | error e => exact (endsLike_done (.error e) after).of_settled left right

theorem EndsLike.atEnd {f g : World → World} (ends : run.EndsLike kind run')
    (kept : ∀ w v, Undisturbed w v → Undisturbed (f w) (g v)) : (run.atEnd f).EndsLike kind (run'.atEnd g) := by
  refine ⟨?_,?_⟩
  · rw [settled_atEnd,settled_atEnd]
    exact ends.results
  · rw [settled_atEnd,settled_atEnd]
    exact kept _ _ ends.worlds

theorem EndsLike.locate (ends : run.EndsLike kind run') (span : Span) :
    (run.locate span).EndsLike kind (run'.locate span) := by
  refine ⟨?_,?_⟩
  · rw [settled_locate,settled_locate]
    exact ends.results.locate span
  · rw [settled_locate,settled_locate]
    exact ends.worlds

end Run

/-- Computations whose runs in paired worlds end alike. -/
def Script.Settling {α : Type} (kind : α → α → Prop) (m n : Script α) : Prop :=
  ∀ w v, Undisturbed w v → (m w).EndsLike kind (n v)

open Script

theorem settling_checkpoint : Settling (· = ·) checkpoint checkpoint := by
  intro w v ⟨worlds,unasked⟩
  have left := settled_checkpoint unasked
  have right := settled_checkpoint (worlds.asked.trans unasked)
  refine (Run.endsLike_done (.ok rfl) ⟨?_,?_⟩).of_settled left right
  · exact ⟨⟨worlds.scenes.store,worlds.scenes.turtle,worlds.scenes.printed⟩,worlds.only,worlds.scope,worlds.callDepth,
      worlds.asked⟩
  · exact unasked

theorem settling_respects : speedAside.Respects Settling where
  pure paired _ _ worlds := ⟨.ok paired,worlds⟩
  fail _ _ _ worlds := ⟨.error _,worlds⟩
  bind first second w v worlds := (first w v worlds).andThen fun a b x y paired => second a b paired x y
  scope _ _ worlds := ⟨.ok worlds.worlds.scope.symm,worlds⟩
  callDepth _ _ worlds := ⟨.ok worlds.worlds.callDepth.symm,worlds⟩
  act steps w v worlds := by
    obtain ⟨r,r',x,y,left,right,results,after⟩ := steps.done worlds.worlds
    have made := left.symm.trans (ofAction_eq steps.left w)
    have unasked : x.monitor.killRequested = false := by
      cases made
      exact worlds.unasked
    rw [left,right]
    exact ⟨results,after,unasked⟩
  locate span m n paired w v worlds := (paired w v worlds).locate span
  checkpoint := settling_checkpoint
  atStatement index index' span span' w _ worlds :=
    ⟨.ok rfl,worlds.worlds.atStatement index index' span span',
      (w.monitor.atStatement_asked index span).trans worlds.unasked⟩
  inCall paired w v := by
    rintro ⟨worlds,unasked⟩
    refine (paired _ _ ⟨worlds.atDepth (congrArg (· + 1) worlds.callDepth),unasked⟩).atEnd fun x y after => ?_
    exact ⟨after.worlds.atDepth worlds.callDepth,after.unasked⟩
  inBlock scope length length' _ _ paired w v := by
    rintro ⟨worlds,unasked⟩
    refine (paired _ _ ⟨worlds.enter scope length length',unasked⟩).atEnd fun x y after => ?_
    exact ⟨after.worlds.exit worlds.scope,after.unasked⟩

/-! ### Programs -/

theorem Library.only_installed {config : Config} {P : String → Prop} {name : String} {a : Value}
    (entry : (name,a) ∈ Library.installed config) (allowed : P name) : a.Only P := by
  have functions : ∀ {table : List Builtin}, (name,a) ∈ Library.functions table → a.Only P := by
    intro table listed
    obtain ⟨b,_,same⟩ := List.mem_map.mp listed
    cases same
    exact allowed
  unfold installed standard drawing screen at entry
  simp only [List.mem_append,List.mem_cons,List.not_mem_nil,or_false,Prod.mk.injEq] at entry
  rcases entry with ((listed | ⟨_,rfl⟩) | listed) | ⟨_,rfl⟩ | ⟨_,rfl⟩
  · exact functions listed
  · exact trivial
  · exact functions listed
  · exact trivial
  · exact trivial

theorem Store.initial_only (config : Config) (P : String → Prop) : (Store.initial config).Only P where
  bindings id b mem := by
    rw [initial_frame] at mem
    split at mem
    · obtain ⟨⟨name,value⟩,entry,rfl⟩ := List.mem_map.mp mem
      exact ⟨Library.only_installed entry,nofun⟩
    · cases mem
  items id a mem := by
    have none : (Store.initial config).items id = [] := rfl
    rw [none] at mem
    cases mem

theorem script_endsLike {config config' : Config} (limits : config.SameLimits config') {program : Program}
    (allowed : ∀ name ∈ Stmt.namesAll program.statements, speedAside.name name) {w v : World}
    (worlds : Undisturbed w v) :
    (program.script config w).EndsLike speedAside.Flows (program.script config' v) := by
  have statements := settling_respects.statements speedAside_fair limits 0 0 allowed
  have same : Stmt.respanAll speedAside.span program.statements = program.statements := Stmt.respanAll_id _
  rw [same] at statements
  let length := program.statements.length
  have block := settling_respects.inBlock Store.global length length statements
  have start : Undisturbed { w with callDepth := 0, scope := Store.global }
      { v with callDepth := 0, scope := Store.global } :=
    ⟨⟨worlds.worlds.scenes,worlds.worlds.only,rfl,rfl,worlds.worlds.asked⟩,worlds.unasked⟩
  exact (block _ _ start).atEnd fun x y after => ⟨after.worlds.look _ _,after.unasked⟩

theorem Interruption.respan_id (e : Interruption) : e.respan id = e := by
  cases e with
  | killed => rfl
  | failed failure =>
    rcases failure with ⟨fault,_ | span⟩
    · rfl
    · rfl

/-- What is told of runs that end alike is the same but for the speed of the turtle. -/
theorem Run.EndsLike.report {run run' : Run Flow} (ends : run.EndsLike speedAside.Flows run') :
    Report.ofEnd run'.settled.1 run'.settled.2.scene =
      { Report.ofEnd run.settled.1 run.settled.2.scene with speed := run'.settled.2.sprite.speed } := by
  obtain ⟨results,worlds,_⟩ := ends
  have outcome : Outcome.ofResult run'.settled.1 = Outcome.ofResult run.settled.1 := by
    generalize run.settled.1 = r at results
    generalize run'.settled.1 = r' at results
    cases results with
    | ok => rfl
    | error e => rw [show e.respan speedAside.span = e from e.respan_id]
  have store : run'.settled.2.store = run.settled.2.store := worlds.scenes.store.trans (Store.respan_id _)
  have turtle : run'.settled.2.sprite.calm = run.settled.2.sprite.calm := worlds.scenes.turtle
  have printed : run'.settled.2.printed = run.settled.2.printed := worlds.scenes.printed
  calc Report.ofEnd run'.settled.1 run'.settled.2.scene
      = { Report.ofSprite run'.settled.2.sprite.calm run'.settled.2.printed (some (.ofResult run'.settled.1))
            (run'.settled.2.store.visible Store.global) run'.settled.2.store with
          speed := run'.settled.2.sprite.speed } := rfl
    _ = { Report.ofSprite run.settled.2.sprite.calm run.settled.2.printed (some (.ofResult run.settled.1))
            (run.settled.2.store.visible Store.global) run.settled.2.store with
          speed := run'.settled.2.sprite.speed } := by
      rw [outcome,store,turtle,printed]
    _ = _ := rfl

namespace Session

variable {s : Session} {final : Except Interruption Flow × World}

theorem compile_boundFor (s : Session) {source : String} {program : Program}
    (compiles : Program.compile source = .ok program) :
    let loaded := (s.compile source).2
    loaded.run = loaded.settleIn program (program.script loaded.config loaded.world) ∧
      loaded.run.BoundFor (program.script loaded.config loaded.world).settled := by
  intro loaded
  have sound : loaded.Sound := s.compile_sound source
  have ready : loaded.phase = .ready program := by
    simp only [loaded,Session.compile,compiles]
  have started : loaded.run = loaded.settleIn program (program.script loaded.config loaded.world) := by
    unfold Session.run
    rw [ready]
    rfl
  have outside : loaded.world.monitor.blocks = [] := by
    refine sound.outside fun _ _ suspended => ?_
    cases ready.symm.trans suspended
  rw [started]
  exact ⟨rfl,loaded.settleIn_boundFor program (script_proper loaded.config program sound.unasked outside)⟩

end Session

theorem script_settled_home (config : Config) (program : Program) (w : World) :
    (program.script config w).settled.2.monitor.scope = some Store.global := by
  have whole : (program.script config w).settled = _ := Run.settled_atEnd _ _
  rw [whole]

/-- The session is one that a program was run to its end in, with a new turtle, whatever ways the turtle went. -/
def Config.Finishes (config : Config) (source : String) (t : Session) : Prop :=
  Driven ((Session.ofConfig config).compile source).2.run t ∧ t.state = .finished

/-- The speed of the turtle is not seen in what it draws. A program whose text has no `getX` and no `getY` can be run to
its end at any speed, and however its host lets the turtle glide, the same lines are printed, the outcome, the variables
and what they lead to are the same, and so is all that is told of the turtle, but for its speed. -/
theorem speed_unseen (source : String) (program : Program) (compiles : Program.compile source = .ok program)
    (unseen : ∀ token ∈ (Token.scan source).tokens, token.kind = .identifier →
      token.lexeme ≠ "getX" ∧ token.lexeme ≠ "getY")
    (config : Config) (speed : Float) :
    (∃ t, config.Finishes source t) ∧
      ∀ t u, config.Finishes source t → { config with turtleSpeed := speed }.Finishes source u →
        u.report = { t.report with speed := u.report.speed } ∧ u.world.store = t.world.store := by
  have loaded : ∀ config : Config, ((Session.ofConfig config).compile source).2 =
      ⟨config,{ sprite := .ofConfig config, store := .initial config },.ready program,[]⟩ := by
    intro config
    unfold Session.compile
    rw [compiles]
    rfl
  have allowed : ∀ name ∈ Stmt.namesAll program.statements, speedAside.name name := by
    intro name mem
    obtain ⟨token,inside,isName,rfl⟩ := Program.names_spelled compiles name mem
    exact unseen token inside isName
  constructor
  · obtain ⟨started,_⟩ := (Session.ofConfig config).compile_boundFor compiles
    obtain ⟨t,driven,finished⟩ := Session.settleIn_driven program _ ((Session.ofConfig config).compile source).2
    rw [← started] at driven
    exact ⟨t,driven,finished⟩
  · rintro t u ⟨driven,finished⟩ ⟨driven',finished'⟩
    have bound := ((Session.ofConfig config).compile_boundFor compiles).2.driven driven
    have bound' := ((Session.ofConfig { config with turtleSpeed := speed }).compile_boundFor compiles).2.driven driven'
    rw [loaded] at bound bound'
    dsimp only at bound bound'
    have start : Undisturbed { sprite := .ofConfig config, store := .initial config }
        { sprite := .ofConfig { config with turtleSpeed := speed },
          store := .initial { config with turtleSpeed := speed } } :=
      ⟨⟨⟨(Store.respan_id _).symm,rfl,rfl⟩,Store.initial_only config _,rfl,rfl,rfl⟩,rfl⟩
    have limits : config.SameLimits { config with turtleSpeed := speed } := ⟨rfl,rfl⟩
    have ends := script_endsLike limits allowed start
    have told := bound.report finished (script_settled_home ..)
    have told' := bound'.report finished' (script_settled_home ..)
    rw [ends.report] at told'
    have same : u.report = { t.report with speed := u.report.speed } := by
      rw [told',told]
    exact ⟨same,(congrArg Report.store same :)⟩

/-- A turtle that glides and one that jumps, with a change of speed on the way. -/
theorem speed_unseen_jump :
    let source := "setPos(screenWidth, PI); beginPoly(); setSpeed(1); forward(PI); addVertex(); hide();"
    let jumping : Config := { turtleSpeed := 0.0 }
    ((Session.ofConfig {}).compile source).2.run.state = .suspended ∧
      ∃ t u, ({} : Config).Finishes source t ∧ jumping.Finishes source u ∧
        u.report = { t.report with speed := u.report.speed } ∧ u.world.store = t.world.store := by
  intro source jumping
  obtain ⟨program,compiles⟩ := Program.compiled_of_isOk source (by decide +kernel)
  have unseen : ∀ token ∈ (Token.scan source).tokens, token.kind = .identifier →
      token.lexeme ≠ "getX" ∧ token.lexeme ≠ "getY" := by decide +kernel
  obtain ⟨⟨t,glides⟩,same⟩ := speed_unseen source program compiles unseen {} 0.0
  obtain ⟨⟨u,jumps⟩,_⟩ := speed_unseen source program compiles unseen jumping 0.0
  exact ⟨by decide +kernel,t,u,glides,jumps,same t u glides jumps⟩

end TurtleScript
