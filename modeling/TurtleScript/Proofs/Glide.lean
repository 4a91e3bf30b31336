import Mathlib.Analysis.Real.Sqrt
import Mathlib.Tactic.FieldSimp
import Mathlib.Tactic.Linarith
import TurtleScript.Simulation

/-!
Glides in numbers of any kind. A tick moves the turtle by the same rule whatever its coordinates are
(`Numbers.advance`); in doubles that is how a turtle is updated (`update_tick`). In real numbers, with
every double read as what it is, each tick shortens the way by just the length of a step
(`distance_advance`), so a glide ends if and only if the speed is positive or there is no way left
(`arrives_iff`).
-/

namespace TurtleScript.Turtle

/-- A kind of numbers to glide in. -/
structure Numbers (N : Type) where
  /-- How a double is read. -/
  ofFloat : Float → N
  /-- How long a tick is in seconds. -/
  tick : N
  add : N → N → N
  sub : N → N → N
  mul : N → N → N
  div : N → N → N
  /-- The length of a diagonal with the given sides. -/
  diagonal : N → N → N
  atMost : N → N → Bool

namespace Numbers

variable {N : Type}

def ofPoint (n : Numbers N) (p : Point) : N × N := (n.ofFloat p.x,n.ofFloat p.y)

/-- Where the turtle is one tick later, unless it has arrived. -/
def advance (n : Numbers N) (speed : N) (target place : N × N) : Option (N × N) :=
  let x := n.sub target.1 place.1
  let y := n.sub target.2 place.2
  let step := n.mul speed n.tick
  let remaining := n.diagonal x y
  if n.atMost remaining step then none
  else some (n.add place.1 (n.mul x (n.div step remaining)),n.add place.2 (n.mul y (n.div step remaining)))

/-- Where the turtle is a number of ticks later, unless it has arrived by then. -/
def travel (n : Numbers N) (speed : N) (target : N × N) : Nat → N × N → Option (N × N)
  | 0,place => some place
  | ticks + 1,place => (n.advance speed target place).bind (n.travel speed target ticks)

end Numbers

def doubles : Numbers Float where
  ofFloat := id
  tick := Simulation.tick
  add := (· + ·)
  sub := (· - ·)
  mul := (· * ·)
  div := (· / ·)
  diagonal := hypotenuse
  atMost a b := decide (a ≤ b)

theorem update_tick {s : Sprite} {target : Point} (way : s.target = some target) :
    s.update Simulation.tick =
      match doubles.advance s.speed (doubles.ofPoint target) (doubles.ofPoint s.position) with
      | some place => { s with position := ⟨place.1,place.2⟩ }
      | none => s.stopGlide := by
  have stopped : s.stopGlide = { s with position := target, target := none } := by
    unfold Sprite.stopGlide Sprite.destination
    rw [way]
    rfl
  unfold Sprite.update
  rw [way,stopped]
  by_cases arrived : s.position.distance target ≤ s.speed * Simulation.tick
  · have none : doubles.advance s.speed (doubles.ofPoint target) (doubles.ofPoint s.position) = none :=
      if_pos (decide_eq_true arrived)
    rw [none]
    exact if_pos arrived
  · have moved : doubles.advance s.speed (doubles.ofPoint target) (doubles.ofPoint s.position) = some _ :=
      if_neg fun near => arrived (of_decide_eq_true near)
    rw [moved]
    exact if_neg arrived

open Float.Model in
/-- What a double is as a real number; what is none counts as zero. -/
noncomputable def exact (x : Float) : ℝ :=
  match x.toModel.unpack with
  | .finite .positive mantissa exponent _ => mantissa * (2 : ℝ) ^ exponent
  | .finite .negative mantissa exponent _ => -(mantissa * (2 : ℝ) ^ exponent)
  | _ => 0

theorem unpack_zero : (0.0 : Float).toModel.unpack = .zero .positive := rfl

theorem lt_iff_unpack (x y : Float) : x < y ↔ x.toModel.unpack.lt y.toModel.unpack = true := by
  show x.lt y = true ↔ _
  unfold Float.lt
  rw [decide_eq_true_iff]
  rfl

theorem scaled_pos {mantissa : Nat} (positive : 0 < mantissa) (exponent : Int) :
    0 < (mantissa : ℝ) * (2 : ℝ) ^ exponent := by
  have first : (0 : ℝ) < mantissa := Nat.cast_pos.mpr positive
  have second : (0 : ℝ) < (2 : ℝ) ^ exponent := zpow_pos (by norm_num) exponent
  exact mul_pos first second

theorem exact_pos_iff {x : Float} (finite : x.isFinite) : 0 < exact x ↔ 0.0 < x := by
  have known : x.toModel.unpack.isFinite = true := finite
  rw [lt_iff_unpack,unpack_zero]
  unfold exact
  generalize x.toModel.unpack = form at known
  rcases form with _ | _ | sign | ⟨sign,mantissa,exponent,positive⟩
  · cases known
  · cases known
  · exact iff_of_false (lt_irrefl (0 : ℝ)) Bool.false_ne_true
  · have scaled := scaled_pos positive exponent
    cases sign with
    | positive => exact iff_of_true scaled rfl
    | negative => exact iff_of_false (not_lt.mpr (neg_nonpos.mpr scaled.le)) Bool.false_ne_true

theorem exact_nonneg {x : Float} (notBelow : ¬ x < 0.0) : 0 ≤ exact x := by
  rw [lt_iff_unpack,unpack_zero] at notBelow
  unfold exact
  generalize x.toModel.unpack = form at notBelow
  rcases form with _ | _ | sign | ⟨sign,mantissa,exponent,positive⟩
  · simp
  · simp
  · simp
  · have scaled := scaled_pos positive exponent
    cases sign with
    | positive => exact scaled.le
    | negative => exact absurd rfl notBelow

theorem not_below_of_pos {x : Float} (positive : 0.0 < x) : ¬ x < 0.0 := by
  rw [lt_iff_unpack,unpack_zero] at positive ⊢
  generalize x.toModel.unpack = form at positive ⊢
  rcases form with sign | _ | sign | ⟨sign,mantissa,exponent,_⟩ <;> try cases sign
  all_goals first | exact Bool.false_ne_true | cases positive

theorem not_isNaN_of_isFinite {x : Float} (finite : x.isFinite) : x.isNaN = false := by
  have known : x.toModel.unpack.isFinite = true := finite
  show x.toModel.unpack.isNaN = false
  generalize x.toModel.unpack = form at known ⊢
  cases form with
  | notANumber => cases known
  | _ => rfl

noncomputable def reals : Numbers ℝ where
  ofFloat := exact
  tick := 1 / 60
  add := (· + ·)
  sub := (· - ·)
  mul := (· * ·)
  div := (· / ·)
  diagonal x y := Real.sqrt (x ^ 2 + y ^ 2)
  atMost a b := decide (a ≤ b)

/-! ### Glides that end -/

noncomputable def distance (target place : ℝ × ℝ) : ℝ :=
  Real.sqrt ((target.1 - place.1) ^ 2 + (target.2 - place.2) ^ 2)

theorem distance_nonneg (target place : ℝ × ℝ) : 0 ≤ distance target place := Real.sqrt_nonneg _

theorem distance_eq_zero_iff {target place : ℝ × ℝ} : distance target place = 0 ↔ place = target := by
  unfold distance
  rw [Real.sqrt_eq_zero (by positivity)]
  constructor
  · intro none
    have first : (target.1 - place.1) ^ 2 = 0 := by nlinarith [sq_nonneg (target.1 - place.1),sq_nonneg (target.2 - place.2)]
    have second : (target.2 - place.2) ^ 2 = 0 := by nlinarith [sq_nonneg (target.1 - place.1)]
    rw [sq_eq_zero_iff,sub_eq_zero] at first second
    exact Prod.ext first.symm second.symm
  · rintro rfl
    simp

section
variable {speed : ℝ} {target place : ℝ × ℝ}

theorem advance_arrived (near : distance target place ≤ speed * (1 / 60)) :
    reals.advance speed target place = none := by
  unfold Numbers.advance
  exact if_pos (decide_eq_true near)

theorem distance_advance (nonneg : 0 ≤ speed) (far : ¬ distance target place ≤ speed * (1 / 60)) :
    ∃ next, reals.advance speed target place = some next ∧
      distance target next = distance target place - speed * (1 / 60) := by
  have step : 0 ≤ speed * (1 / 60) := by positivity
  have way : 0 < distance target place := by linarith
  let part := speed * (1 / 60) / distance target place
  let next := (place.1 + (target.1 - place.1) * part,place.2 + (target.2 - place.2) * part)
  refine ⟨next,?_,?_⟩
  · unfold Numbers.advance
    exact if_neg (by simpa [reals,distance] using far)
  · have small : part ≤ 1 := (div_le_one way).mpr (by linarith)
    have shrunk : (target.1 - next.1) ^ 2 + (target.2 - next.2) ^ 2 =
        (1 - part) ^ 2 * ((target.1 - place.1) ^ 2 + (target.2 - place.2) ^ 2) := by
      simp only [next]
      ring
    have whole : distance target place * part = speed * (1 / 60) := by
      simp only [part]
      field_simp
    calc distance target next
        = (1 - part) * distance target place := by
          unfold distance
          rw [shrunk,Real.sqrt_mul (sq_nonneg _),Real.sqrt_sq (by linarith)]
      _ = distance target place - speed * (1 / 60) := by linarith

theorem travel_arrived (nonneg : 0 ≤ speed) (ticks : Nat)
    (near : distance target place ≤ (ticks + 1 : ℕ) * (speed * (1 / 60))) :
    reals.travel speed target (ticks + 1) place = none := by
  induction ticks generalizing place with
  | zero =>
    rw [Numbers.travel,advance_arrived (by simpa using near)]
    rfl
  | succ ticks ih =>
    rw [Numbers.travel]
    by_cases arrived : distance target place ≤ speed * (1 / 60)
    · rw [advance_arrived arrived]
      rfl
    · obtain ⟨next,moved,nearer⟩ := distance_advance nonneg arrived
      rw [moved]
      refine ih ?_
      rw [nearer]
      push_cast at near ⊢
      linarith

theorem travel_stuck (away : place ≠ target) (ticks : Nat) : reals.travel 0 target ticks place = some place := by
  have way : 0 < distance target place :=
    lt_of_le_of_ne (distance_nonneg _ _) fun none => away (distance_eq_zero_iff.mp none.symm)
  have stays : reals.advance 0 target place = some place := by
    unfold Numbers.advance
    have far : ¬ distance target place ≤ 0 * (1 / 60) := by linarith
    refine (if_neg (by simpa [reals,distance] using far)).trans ?_
    simp [reals]
  induction ticks with
  | zero => rfl
  | succ ticks ih =>
    rw [Numbers.travel,stays]
    exact ih

theorem arrives_iff (nonneg : 0 ≤ speed) :
    (∃ ticks, reals.travel speed target ticks place = none) ↔ 0 < speed ∨ place = target := by
  constructor
  · rintro ⟨ticks,arrived⟩
    by_contra stuck
    rw [not_or] at stuck
    have zero : speed = 0 := le_antisymm (not_lt.mp stuck.1) nonneg
    rw [zero,travel_stuck stuck.2] at arrived
    cases arrived
  · rintro (positive | rfl)
    · obtain ⟨ticks,enough⟩ := Archimedean.arch (distance target place) (y := speed * (1 / 60)) (by positivity)
      refine ⟨ticks + 1,travel_arrived nonneg ticks ?_⟩
      rw [nsmul_eq_mul] at enough
      push_cast
      nlinarith
    · refine ⟨0 + 1,travel_arrived nonneg 0 ?_⟩
      rw [distance_eq_zero_iff.mpr rfl]
      positivity

end

end TurtleScript.Turtle
