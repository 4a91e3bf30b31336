import TurtleScript.Proofs.Effects
import TurtleScript.Proofs.Following
import TurtleScript.Proofs.Glide
import TurtleScript.Proofs.LawfulSessions

/-!
When a session without a screen comes to its end. While the program waits, time passes in ticks; the
loop of ticks is the same for numbers of any kind (`Ticking`), and in doubles it is that of the
simulation (`simulation_settleWithin`). In exact numbers it comes to its end if and only if at every
wait the turtle has a speed or no way to go (`settles_iff`). The speed is never negative, but a program
can take it away from a turtle that is on its way, and then wait for ever (`stranded`).
-/

namespace TurtleScript

open Turtle

/-- A turtle with a finite speed, which is not negative if the turtle is on its way. -/
structure Turtle.Sprite.Paced (x : Sprite) : Prop where
  speed : x.speed.isFinite
  defaultSpeed : x.defaultSpeed.isFinite
  notBelow : x.gliding → ¬ x.speed < 0.0

namespace Turtle.Sprite.Paced

variable {x : Sprite}

theorem stopGlide (paced : x.Paced) : x.stopGlide.Paced :=
  ⟨paced.speed,paced.defaultSpeed,fun moving => nomatch moving⟩

theorem reset (paced : x.Paced) : x.reset.Paced :=
  ⟨paced.defaultSpeed,paced.defaultSpeed,fun moving => nomatch moving⟩

theorem moveTo (paced : x.Paced) (target : Point) : (x.moveTo target).Paced := by
  unfold Sprite.moveTo
  simp only
  split
  case isTrue positive => exact ⟨paced.speed,paced.defaultSpeed,fun _ below => not_below_of_pos positive below⟩
  case isFalse => exact ⟨paced.speed,paced.defaultSpeed,fun moving => nomatch moving⟩

theorem setSpeed (paced : x.Paced) {speed : Float} (notBelow : ¬ speed < 0.0) (finite : speed.isFinite) :
    (x.setSpeed speed).Paced := by
  have same : greater speed 0.0 = speed := by
    unfold greater
    rw [not_isNaN_of_isFinite finite,decide_eq_false notBelow]
    rfl
  have set : x.setSpeed speed = { x with speed := speed } := by
    unfold Sprite.setSpeed
    rw [same]
  rw [set]
  exact ⟨finite,paced.defaultSpeed,fun _ => notBelow⟩

theorem draws (paced : x.Paced) {f : Sprite → Sprite} (drawn : Draws f) : (f x).Paced := by
  cases drawn with
  | move target => exact paced.moveTo target
  | forward distance => exact paced.stopGlide.moveTo _
  | speed notBelow finite => exact paced.setSpeed notBelow finite
  | look target speed kept =>
    refine ⟨?_,?_,?_⟩
    · rw [speed]
      exact paced.speed
    · rw [kept]
      exact paced.defaultSpeed
    · unfold gliding
      rw [target,speed]
      exact paced.notBelow

end Turtle.Sprite.Paced

def pacing : Law where
  turtle := Sprite.Paced
  holds s := s.sprite.Paced
  scope _ _ := True

theorem pacing_fits (s : Scene) (a : Value) : pacing.Fits s a := by
  cases a with
  | function f => cases f <;> exact trivial
  | _ => exact trivial

theorem pacing_kept : pacing.Kept where
  turtle holds := holds
  still paced := paced.stopGlide
  handed _ paced := ⟨paced,fun _ _ => trivial⟩
  global _ := trivial
  get _ _ _ := pacing_fits _ _
  item _ _ := pacing_fits _ _
  put holds _ _ _ := ⟨holds,fun _ _ => trivial⟩
  bind holds _ _ _ := ⟨holds,fun _ _ => trivial⟩
  newArray holds _ := ⟨holds,fun _ _ => trivial⟩
  newClosure _ _ _ _ holds := ⟨holds,fun _ _ => trivial⟩
  child holds _ := ⟨⟨holds,fun _ _ => trivial⟩,trivial⟩
  apply {s} b args holds _ := by
    refine ⟨⟨?_,fun _ _ => trivial⟩,fun _ _ => pacing_fits _ _⟩
    have effect := b.effect args s
    generalize (b.apply args).onScene s = out at effect
    cases effect with
    | draws drawn _ => exact Sprite.Paced.draws holds drawn
    | _ => exact holds

/-- A session in which time passes, with the place of its turtle in numbers of some kind. -/
structure Ticking (N : Type) where
  session : Session
  place : N × N
  ticks : Nat

namespace Ticking

variable {N : Type}

/-- A session whose turtle is where it is said to be. -/
def ofSession (n : Numbers N) (session : Session) (ticks : Nat) : Ticking N :=
  ⟨session,n.ofPoint session.world.sprite.position,ticks⟩

/-- One tick later; the program goes on as soon as the turtle has arrived. -/
def step (n : Numbers N) (t : Ticking N) : Ticking N :=
  match t.session.world.sprite.target with
  | none => ofSession n t.session.resume (t.ticks + 1)
  | some target =>
    match n.advance (n.ofFloat t.session.world.sprite.speed) (n.ofPoint target) t.place with
    | some place => { t with place := place, ticks := t.ticks + 1 }
    | none => ofSession n (t.session.draw (·.stopGlide)).resume (t.ticks + 1)

/-- Lets time pass until the program has ended, for at most the given number of ticks. -/
def settleWithin (n : Numbers N) (t : Ticking N) : Nat → Ticking N
  | 0 => t
  | ticks + 1 => if t.session.state = .suspended then (t.step n).settleWithin n ticks else t

/-- The program comes to its end after some number of ticks. -/
def Settles (n : Numbers N) (t : Ticking N) : Prop :=
  ∃ ticks, (t.settleWithin n ticks).session.state ≠ .suspended

/-- The session as it is simulated, with its turtle on its way. -/
def simulation (t : Ticking Float) : Simulation where
  session := t.session.draw ({ · with position := ⟨t.place.1,t.place.2⟩ })
  ticks := t.ticks

/-- A turtle that stands still is where it is said to be. -/
def Tracks (t : Ticking Float) : Prop :=
  t.session.world.sprite.target = none → t.place = doubles.ofPoint t.session.world.sprite.position

theorem tracks_ofSession (session : Session) (ticks : Nat) : (ofSession doubles session ticks).Tracks :=
  fun _ => rfl

theorem simulation_ofSession (session : Session) (ticks : Nat) :
    (ofSession doubles session ticks).simulation = ⟨session,ticks⟩ := rfl

theorem tracks_step (t : Ticking Float) : (t.step doubles).Tracks := by
  unfold step
  split
  · exact tracks_ofSession _ _
  case h_2 target way =>
    split
    · intro still
      rw [way] at still
      cases still
    · exact tracks_ofSession _ _

theorem simulation_step {t : Ticking Float} (tracks : t.Tracks) :
    (t.step doubles).simulation = t.simulation.step := by
  let moving : Sprite := { t.session.world.sprite with position := ⟨t.place.1,t.place.2⟩ }
  have later : t.simulation.step = ⟨if (moving.update Simulation.tick).gliding
      then t.session.draw fun _ => moving.update Simulation.tick
      else (t.session.draw fun _ => moving.update Simulation.tick).resume,t.ticks + 1⟩ := rfl
  rw [later]
  unfold step
  cases way : t.session.world.sprite.target with
  | none =>
    have still : moving = t.session.world.sprite := by
      simp only [moving,tracks way]
      rfl
    have stays : t.session.world.sprite.update Simulation.tick = t.session.world.sprite := by
      unfold Sprite.update
      rw [way]
    have same : (t.session.draw fun _ => t.session.world.sprite) = t.session := rfl
    rw [still,stays,same]
    unfold Sprite.gliding
    rw [way]
    rfl
  | some target =>
    have moves := update_tick (s := moving) way
    have onTheWay : t.session.world.sprite.target.isSome = true := by
      rw [way]
      rfl
    simp only
    cases ahead : doubles.advance (doubles.ofFloat t.session.world.sprite.speed) (doubles.ofPoint target) t.place with
    | some next =>
      have moved : moving.update Simulation.tick = { moving with position := ⟨next.1,next.2⟩ } := by
        rw [moves,show doubles.advance moving.speed _ (doubles.ofPoint moving.position) = some next from ahead]
      have on : ({ moving with position := ⟨next.1,next.2⟩ } : Sprite).gliding = true := onTheWay
      rw [moved,if_pos on]
      rfl
    | none =>
      have arrived : moving.update Simulation.tick = t.session.world.sprite.stopGlide := by
        rw [moves,show doubles.advance moving.speed _ (doubles.ofPoint moving.position) = none from ahead]
        simp only [Sprite.stopGlide,Sprite.destination,moving,way,Option.getD_some]
      rw [arrived]
      rfl

theorem Tracks.settleWithin {t : Ticking Float} (tracks : t.Tracks) (ticks : Nat) :
    (t.settleWithin doubles ticks).simulation = t.simulation.settleWithin ticks := by
  induction ticks generalizing t with
  | zero => rfl
  | succ ticks ih =>
    have same : t.simulation.session.state = t.session.state := rfl
    unfold Ticking.settleWithin Simulation.settleWithin
    rw [same]
    split
    · rw [ih t.tracks_step,simulation_step tracks]
    · rfl

theorem simulation_settleWithin (session : Session) (passed ticks : Nat) :
    ((ofSession doubles session passed).settleWithin doubles ticks).simulation =
      (⟨session,passed⟩ : Simulation).settleWithin ticks := by
  rw [(tracks_ofSession session passed).settleWithin,simulation_ofSession]

end Ticking

/-! ### Waits that end -/

/-- The session when the turtle has arrived and the program goes on. -/
def Session.arrived (s : Session) : Session := (s.draw (·.stopGlide)).resume

/-- The sessions in which the program comes to wait, if the turtle arrives each time. -/
inductive Session.Awaits : Session → Session → Prop where
  | here {s : Session} (waits : s.state = .suspended) : Awaits s s
  | later {s t : Session} (waits : s.state = .suspended) (rest : Awaits s.arrived t) : Awaits s t

/-- The turtle is on a way that has an end: it has a speed, or no way to go. -/
def Session.Arrives (s : Session) : Prop :=
  0.0 < s.world.sprite.speed ∨
    reals.ofPoint s.world.sprite.position = reals.ofPoint s.world.sprite.destination

/-- Where the turtle is in exact numbers after some ticks, unless it has arrived by then. -/
noncomputable def Session.traveled (s : Session) (ticks : Nat) : Option (ℝ × ℝ) :=
  reals.travel (exact s.world.sprite.speed) (reals.ofPoint s.world.sprite.destination) ticks
    (reals.ofPoint s.world.sprite.position)

theorem Session.traveled_iff {s : Session} (paced : s.world.sprite.Paced) (moving : s.gliding) :
    (∃ ticks, s.traveled ticks = none) ↔ s.Arrives := by
  have nonneg : 0 ≤ exact s.world.sprite.speed := exact_nonneg (paced.notBelow moving)
  unfold traveled Arrives
  rw [arrives_iff nonneg,exact_pos_iff paced.speed]

namespace Ticking

variable {s : Session}

theorem settles_of_not_suspended {N : Type} {n : Numbers N} {t : Ticking N}
    (stopped : t.session.state ≠ .suspended) : t.Settles n := ⟨0,stopped⟩

theorem Settles.of_step {N : Type} {n : Numbers N} {t : Ticking N} (waits : t.session.state = .suspended)
    (settles : (t.step n).Settles n) : t.Settles n := by
  obtain ⟨ticks,stopped⟩ := settles
  refine ⟨ticks + 1,?_⟩
  rw [settleWithin,if_pos waits]
  exact stopped

theorem step_still (still : s.world.sprite.target = none) (place : ℝ × ℝ) (ticks : Nat) :
    step reals ⟨s,place,ticks⟩ = ofSession reals s.arrived (ticks + 1) := by
  have same : s.world.sprite.stopGlide = s.world.sprite := by
    refine Sprite.stopGlide_of_still ?_
    unfold Sprite.gliding
    rw [still]
    rfl
  have arrived : s.arrived = s.resume := by
    unfold Session.arrived Session.draw
    simp only [same]
  unfold step
  rw [still,arrived]

theorem step_moving {target : Point} (way : s.world.sprite.target = some target) (place : ℝ × ℝ) (ticks : Nat) :
    step reals ⟨s,place,ticks⟩ =
      match reals.advance (exact s.world.sprite.speed) (reals.ofPoint target) place with
      | some next => ⟨s,next,ticks + 1⟩
      | none => ofSession reals s.arrived (ticks + 1) := by
  have read : reals.ofFloat = exact := rfl
  unfold step Session.arrived
  simp only [way,read]
  cases reals.advance (exact s.world.sprite.speed) (reals.ofPoint target) place <;> rfl

theorem settles_of_traveled (waits : s.state = .suspended) {target : Point}
    (way : s.world.sprite.target = some target) (rest : ∀ ticks, (ofSession reals s.arrived ticks).Settles reals)
    {ticks : Nat} {place : ℝ × ℝ}
    (arrived : reals.travel (exact s.world.sprite.speed) (reals.ofPoint target) ticks place = none) (passed : Nat) :
    Settles reals ⟨s,place,passed⟩ := by
  induction ticks generalizing place passed with
  | zero => cases arrived
  | succ ticks ih =>
    refine Settles.of_step waits ?_
    rw [Numbers.travel] at arrived
    rw [step_moving way]
    cases ahead : reals.advance (exact s.world.sprite.speed) (reals.ofPoint target) place with
    | none => exact rest _
    | some next =>
      rw [ahead] at arrived
      exact ih arrived _

theorem traveled_of_settleWithin (waits : s.state = .suspended) {target : Point}
    (way : s.world.sprite.target = some target) {ticks : Nat} {place : ℝ × ℝ} {passed : Nat}
    (stopped : (settleWithin reals ⟨s,place,passed⟩ ticks).session.state ≠ .suspended) :
    (∃ travelled, reals.travel (exact s.world.sprite.speed) (reals.ofPoint target) travelled place = none) ∧
      ∃ fewer < ticks, ∃ later,
        (settleWithin reals (ofSession reals s.arrived later) fewer).session.state ≠ .suspended := by
  induction ticks generalizing place passed with
  | zero => exact absurd waits stopped
  | succ ticks ih =>
    rw [settleWithin,if_pos waits,step_moving way] at stopped
    cases ahead : reals.advance (exact s.world.sprite.speed) (reals.ofPoint target) place with
    | none =>
      rw [ahead] at stopped
      refine ⟨⟨1,?_⟩,ticks,by omega,_,stopped⟩
      rw [Numbers.travel,ahead]
      rfl
    | some next =>
      rw [ahead] at stopped
      obtain ⟨⟨travelled,arrived⟩,fewer,less,later,rest⟩ := ih stopped
      refine ⟨⟨travelled + 1,?_⟩,fewer,by omega,later,rest⟩
      rw [Numbers.travel,ahead]
      exact arrived

end Ticking

/-- Calls of a host without a screen: it moves the turtle only to the end of its way, or home. -/
def HostCall.Offscreen : HostCall → Prop
  | .draw f => f = Sprite.stopGlide ∨ f = Sprite.reset
  | _ => True

theorem HostCall.Offscreen.respects {call : HostCall} (offscreen : call.Offscreen) : call.Respects pacing := by
  cases call with
  | draw f =>
    rcases offscreen with rfl | rfl
    · exact fun _ paced => Sprite.Paced.stopGlide paced
    · exact fun _ paced => Sprite.Paced.reset paced
  | _ => exact trivial

namespace Session

variable {config : Config} {s t : Session}

theorem Lawful.arrived (lawful : s.Lawful pacing config) : s.arrived.Lawful pacing config :=
  (lawful.draw pacing_kept fun _ => Sprite.Paced.stopGlide).resume pacing_kept

theorem Awaits.lawful (awaits : s.Awaits t) (lawful : s.Lawful pacing config) : t.Lawful pacing config := by
  induction awaits with
  | here => exact lawful
  | later _ _ ih => exact ih lawful.arrived

theorem arrives_of_still (still : s.world.sprite.target = none) : s.Arrives := by
  unfold Arrives Sprite.destination
  rw [still]
  exact .inr rfl

theorem destination_eq {target : Point} (way : s.world.sprite.target = some target) :
    s.world.sprite.destination = target := by
  unfold Sprite.destination
  rw [way]
  rfl

theorem gliding_of_target {target : Point} (way : s.world.sprite.target = some target) : s.gliding := by
  unfold gliding Sprite.gliding
  rw [way]
  rfl

theorem arrives_of_settleWithin {ticks passed : Nat} (lawful : s.Lawful pacing config)
    (stopped : ((Ticking.ofSession reals s passed).settleWithin reals ticks).session.state ≠ .suspended)
    (awaits : s.Awaits t) : t.Arrives := by
  -- Each wait takes at least one tick, so the rest of the loop has fewer.
  induction ticks using Nat.strong_induction_on generalizing s passed with
  | _ ticks ih =>
    cases way : s.world.sprite.target with
    | none =>
      cases awaits with
      | here waits => exact arrives_of_still way
      | later waits rest =>
        cases ticks with
        | zero => exact absurd waits stopped
        | succ ticks =>
          have stepped : Ticking.step reals (Ticking.ofSession reals s passed) = _ := Ticking.step_still way _ _
          have entered : (Ticking.ofSession reals s passed).session.state = .suspended := waits
          rw [Ticking.settleWithin,if_pos entered,stepped] at stopped
          exact ih ticks (by omega) lawful.arrived stopped rest
    | some target =>
      have waits : s.state = .suspended := by
        cases awaits with
        | here waits => exact waits
        | later waits _ => exact waits
      obtain ⟨⟨travelled,arrived⟩,fewer,less,later,rest⟩ := Ticking.traveled_of_settleWithin waits way stopped
      cases awaits with
      | here =>
        refine (traveled_iff lawful.turtle (gliding_of_target way)).mp ⟨travelled,?_⟩
        unfold traveled
        rw [destination_eq way]
        exact arrived
      | later _ further => exact ih fewer less lawful.arrived rest further

theorem settles_of_arrives (lawful : s.Lawful pacing config) (waits : s.state = .suspended)
    (arrives : s.Arrives) (rest : ∀ ticks, (Ticking.ofSession reals s.arrived ticks).Settles reals)
    (passed : Nat) : (Ticking.ofSession reals s passed).Settles reals := by
  cases way : s.world.sprite.target with
  | none =>
    refine Ticking.Settles.of_step waits ?_
    have stepped : Ticking.step reals (Ticking.ofSession reals s passed) = _ := Ticking.step_still way _ _
    rw [stepped]
    exact rest _
  | some target =>
    obtain ⟨ticks,arrived⟩ := (traveled_iff lawful.turtle (gliding_of_target way)).mpr arrives
    unfold traveled at arrived
    rw [destination_eq way] at arrived
    exact Ticking.settles_of_traveled waits way rest arrived passed

theorem arrived_eq {program : Program} {resume : World → Run Flow} (phase : s.phase = .suspended program resume) :
    s.arrived = (s.draw (·.stopGlide)).settleIn program (resume s.world.still) := by
  have drawn : (s.draw (·.stopGlide)).phase = .suspended program resume := phase
  unfold arrived Session.resume
  rw [drawn]
  rfl

theorem settleIn_settles (run : Run Flow) (program : Program) {s : Session}
    (lawful : (s.settleIn program run).Lawful pacing config)
    (arrive : ∀ t, (s.settleIn program run).Awaits t → t.Arrives) (ticks : Nat) :
    (Ticking.ofSession reals (s.settleIn program run) ticks).Settles reals := by
  induction run generalizing s ticks with
  | done result w => exact Ticking.settles_of_not_suspended fun waits => nomatch waits
  | waiting w resume ih =>
    have next : (s.settleIn program (.waiting w resume)).arrived = _ := arrived_eq rfl
    have waits : (s.settleIn program (.waiting w resume)).state = .suspended := rfl
    refine settles_of_arrives lawful waits (arrive _ (.here waits)) (fun later => ?_) ticks
    have lawfulNext := lawful.arrived
    have arriveNext : ∀ t, (s.settleIn program (.waiting w resume)).arrived.Awaits t → t.Arrives :=
      fun t awaits => arrive t (.later waits awaits)
    rw [next] at lawfulNext arriveNext ⊢
    exact ih _ lawfulNext arriveNext later

theorem settles_of_all_arrive (lawful : s.Lawful pacing config) (arrive : ∀ t, s.Awaits t → t.Arrives)
    (ticks : Nat) : (Ticking.ofSession reals s ticks).Settles reals := by
  cases phase : s.phase with
  | suspended program resume =>
    have waits : s.state = .suspended := by
      unfold state
      rw [phase]
    refine settles_of_arrives lawful waits (arrive s (.here waits)) (fun later => ?_) ticks
    have lawfulNext := lawful.arrived
    have arriveNext : ∀ t, s.arrived.Awaits t → t.Arrives := fun t awaits => arrive t (.later waits awaits)
    rw [arrived_eq phase] at lawfulNext arriveNext ⊢
    exact settleIn_settles _ program lawfulNext arriveNext later
  | _ =>
    refine Ticking.settles_of_not_suspended fun waits => ?_
    have other : s.state = .suspended := waits
    unfold state at other
    rw [phase] at other
    cases other

end Session

/-- The loop of ticks, which in doubles is the one of the simulation, in exact numbers: every turtle that
is waited for has a finite speed, which is not negative, and its glide ends if and only if the speed is
positive or it has no way to go. The program comes to its end if and only if all the glides it waits for
do. -/
theorem settles_iff (config : Config) (finite : config.turtleSpeed.isFinite) {calls : List HostCall}
    (offscreen : ∀ call ∈ calls, call.Offscreen) (ticks : Nat) :
    let s := calls.foldl Session.apply (.ofConfig config)
    (∀ n, ((Ticking.ofSession doubles s ticks).settleWithin doubles n).simulation =
      (⟨s,ticks⟩ : Simulation).settleWithin n) ∧
    (∀ t, s.Awaits t → t.world.sprite.speed.isFinite ∧ (t.gliding → ¬ t.world.sprite.speed < 0.0) ∧
      (t.gliding → ((∃ ticks, t.traveled ticks = none) ↔ t.Arrives))) ∧
    ((Ticking.ofSession reals s ticks).Settles reals ↔ ∀ t, s.Awaits t → t.Arrives) := by
  intro s
  have start : Sprite.Paced (.ofConfig config) := ⟨finite,finite,fun moving => nomatch moving⟩
  have lawful : s.Lawful pacing config :=
    (Session.ofConfig_lawful config start).calls (fun _ _ paced => paced) pacing_kept
      fun call mem => (offscreen call mem).respects
  refine ⟨Ticking.simulation_settleWithin s ticks,fun t awaits => ?_,?_,?_⟩
  · have paced : t.world.sprite.Paced := (awaits.lawful lawful).turtle
    exact ⟨paced.speed,paced.notBelow,Session.traveled_iff paced⟩
  · rintro ⟨enough,stopped⟩ t awaits
    exact Session.arrives_of_settleWithin lawful stopped awaits
  · exact fun arrive => Session.settles_of_all_arrive lawful arrive ticks

/-- A program that takes the speed away from a turtle on its way, and then waits for it. -/
def strandedText : String := "[setPos(0, 0), setSpeed(0)]; print(1);"

def strandedCalls : List HostCall := [.compile strandedText,.run]

def strandedSession : Session := strandedCalls.foldl Session.apply (.ofConfig {})

section
set_option maxRecDepth 10000

/-- Where the program waits, the turtle is still in the middle of the screen and has no speed. -/
theorem strandedSession_waits : (strandedSession.state,strandedSession.world.sprite.speed,
    strandedSession.world.sprite.position.x,strandedSession.world.sprite.position.y,
    strandedSession.world.sprite.target.map fun p => (p.x,p.y)) =
      (.suspended,0.0,640.0,360.0,some (0.0,0.0)) := by decide +kernel

end

theorem strandedSession_state : strandedSession.state = .suspended :=
  congrArg Prod.fst strandedSession_waits

theorem strandedSession_speed : strandedSession.world.sprite.speed = 0.0 :=
  congrArg (·.2.1) strandedSession_waits

theorem strandedSession_position : strandedSession.world.sprite.position = ⟨640.0,360.0⟩ := by
  have first : strandedSession.world.sprite.position.x = 640.0 := congrArg (·.2.2.1) strandedSession_waits
  have second : strandedSession.world.sprite.position.y = 360.0 := congrArg (·.2.2.2.1) strandedSession_waits
  rw [← first,← second]

theorem strandedSession_target : strandedSession.world.sprite.target = some ⟨0.0,0.0⟩ := by
  have read : strandedSession.world.sprite.target.map (fun p => (p.x,p.y)) = some (0.0,0.0) :=
    congrArg (·.2.2.2.2) strandedSession_waits
  obtain ⟨p,way,same⟩ := Option.map_eq_some_iff.mp read
  cases p
  cases same
  exact way

theorem strandedSession_tick : strandedSession.draw (·.update Simulation.tick) = strandedSession := by
  have far : ¬ Point.distance ⟨640.0,360.0⟩ ⟨0.0,0.0⟩ ≤ 0.0 * Simulation.tick := by decide +kernel
  have stays : Point.between ⟨640.0,360.0⟩ ⟨0.0,0.0⟩
      (0.0 * Simulation.tick / Point.distance ⟨640.0,360.0⟩ ⟨0.0,0.0⟩) = ⟨640.0,360.0⟩ := by
    rw [Point.between,Point.mk.injEq]
    exact ⟨by decide +kernel,by decide +kernel⟩
  have same : strandedSession.world.sprite.update Simulation.tick = strandedSession.world.sprite := by
    unfold Sprite.update
    rw [strandedSession_target,strandedSession_speed,strandedSession_position]
    simp only [if_neg far,stays]
    rw [← strandedSession_position,← strandedSession_target,← strandedSession_speed]
  unfold Session.draw
  simp only [same]

/-- Time passes for ever, and the program still waits. -/
theorem stranded : ({} : Config).turtleSpeed.isFinite ∧ strandedSession.gliding ∧
    ¬ 0.0 < strandedSession.world.sprite.speed ∧
    ∀ ticks passed, ((⟨strandedSession,passed⟩ : Simulation).settleWithin ticks).session.state = .suspended := by
  have moving : strandedSession.gliding := Session.gliding_of_target strandedSession_target
  refine ⟨by decide +kernel,moving,?_,fun ticks => ?_⟩
  · rw [strandedSession_speed]
    decide +kernel
  · induction ticks with
    | zero => exact fun _ => strandedSession_state
    | succ ticks ih =>
      intro passed
      have step : (⟨strandedSession,passed⟩ : Simulation).step = ⟨strandedSession,passed + 1⟩ := by
        unfold Simulation.step
        simp only [strandedSession_tick,moving,if_true]
      rw [Simulation.settleWithin,if_pos strandedSession_state,step]
      exact ih _

/-- In exact numbers the same program does not come to its end either. -/
theorem settles_iff_stranded : (∀ call ∈ strandedCalls, call.Offscreen) ∧
    ¬ (Ticking.ofSession reals strandedSession 0).Settles reals := by
  have offscreen : ∀ call ∈ strandedCalls, call.Offscreen := by
    intro call mem
    rcases List.mem_cons.mp mem with rfl | mem
    · exact trivial
    · rw [List.mem_singleton.mp mem]
      exact trivial
  refine ⟨offscreen,fun settles => ?_⟩
  have arrive := (settles_iff {} (by decide +kernel) offscreen 0).2.2.mp settles
  rcases arrive strandedSession (.here strandedSession_state) with positive | there
  · rw [strandedSession_speed] at positive
    exact absurd positive (by decide +kernel)
  · rw [Session.destination_eq strandedSession_target,strandedSession_position] at there
    have same : exact 640.0 = exact 0.0 := congrArg Prod.fst there
    have positive : 0 < exact 640.0 := (exact_pos_iff (by decide +kernel)).mpr (by decide +kernel)
    rw [same,exact_pos_iff (by decide +kernel)] at positive
    exact absurd positive (by decide +kernel)

end TurtleScript
