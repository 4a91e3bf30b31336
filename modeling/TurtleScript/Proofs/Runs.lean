import TurtleScript.Script

/-!
The ways a run can go. While a run waits, its host may move the turtle and ask the run to stop; it
reaches nothing else. `Ends` and `Waits` follow a run through any number of waits with such a host:
where it can end and where it can come to wait. Both are determined part by part for computations
in sequence (`ends_andThen`, `waits_andThen`).
-/

namespace TurtleScript

/-- A world that a host may hand back to a run that waits: the turtle may be another and the run may
have been asked to stop, and all else is as the run left it. -/
structure Handed (before after : World) : Prop where
  store : after.store = before.store
  printed : after.printed = before.printed
  scope : after.scope = before.scope
  callDepth : after.callDepth = before.callDepth
  blocks : after.monitor.blocks = before.monitor.blocks
  shown : after.monitor.scope = before.monitor.scope

theorem Handed.refl (w : World) : Handed w w := ⟨rfl,rfl,rfl,rfl,rfl,rfl⟩

theorem Handed.trans {u v w : World} (first : Handed u v) (second : Handed v w) : Handed u w :=
  ⟨second.store.trans first.store,second.printed.trans first.printed,second.scope.trans first.scope,
    second.callDepth.trans first.callDepth,second.blocks.trans first.blocks,
    second.shown.trans first.shown⟩

theorem handed_sprite (w : World) (sprite : Turtle.Sprite) : Handed w { w with sprite := sprite } :=
  ⟨rfl,rfl,rfl,rfl,rfl,rfl⟩

theorem handed_kill (w : World) (asked : Bool) :
    Handed w { w with monitor := { w.monitor with killRequested := asked } } :=
  ⟨rfl,rfl,rfl,rfl,rfl,rfl⟩

namespace Run

variable {α β : Type}

/-- The run can end with a result in a world, whatever its host does at the waits in between. -/
inductive Ends : Run α → Except Interruption α → World → Prop where
  | done (result : Except Interruption α) (w : World) : Ends (.done result w) result w
  | waiting {w v : World} {resume : World → Run α} {result : Except Interruption α} {after : World}
      (handed : Handed w v) (ends : Ends (resume v) result after) :
      Ends (.waiting w resume) result after

/-- The run can come to wait in a world, whatever its host does at the waits before. -/
inductive Waits : Run α → World → Prop where
  | here (w : World) (resume : World → Run α) : Waits (.waiting w resume) w
  | later {w v u : World} {resume : World → Run α} (handed : Handed w v) (waits : Waits (resume v) u) :
      Waits (.waiting w resume) u

@[simp] theorem ends_done {result other : Except Interruption α} {w v : World} :
    Ends (.done result w) other v ↔ other = result ∧ v = w := by
  constructor
  · intro ends
    cases ends
    exact ⟨rfl,rfl⟩
  · rintro ⟨rfl,rfl⟩
    exact .done _ _

@[simp] theorem not_waits_done {result : Except Interruption α} {w u : World} :
    ¬ Waits (.done result w) u := by
  intro waits
  cases waits

theorem ends_waiting {w : World} {resume : World → Run α} {result : Except Interruption α}
    {after : World} :
    Ends (.waiting w resume) result after ↔ ∃ v, Handed w v ∧ Ends (resume v) result after := by
  constructor
  · intro ends
    cases ends with
    | waiting handed ends => exact ⟨_,handed,ends⟩
  · rintro ⟨v,handed,ends⟩
    exact .waiting handed ends

theorem waits_waiting {w : World} {resume : World → Run α} {u : World} :
    Waits (.waiting w resume) u ↔ u = w ∨ ∃ v, Handed w v ∧ Waits (resume v) u := by
  constructor
  · intro waits
    cases waits with
    | here => exact .inl rfl
    | later handed waits => exact .inr ⟨_,handed,waits⟩
  · rintro (rfl | ⟨v,handed,waits⟩)
    · exact .here _ _
    · exact .later handed waits

/-- Of three computations in sequence it does not matter which two are put together first. -/
theorem andThen_andThen {γ : Type} (run : Run α) (f : α → World → Run β) (g : β → World → Run γ) :
    (run.andThen f).andThen g = run.andThen fun a w => (f a w).andThen g := by
  induction run with
  | done result w => cases result <;> rfl
  | waiting w resume ih => simp only [andThen,ih]

/-- Two computations in sequence end where the second one does, or where the first one is
interrupted. -/
theorem ends_andThen (run : Run α) (f : α → World → Run β) (result : Except Interruption β)
    (after : World) :
    Ends (run.andThen f) result after ↔
      (∃ a w, Ends run (.ok a) w ∧ Ends (f a w) result after) ∨
        ∃ e, result = .error e ∧ Ends run (.error e) after := by
  induction run with
  | done first w =>
    cases first with
    | ok a => simp [andThen,and_assoc]
    | error e =>
      simp only [andThen,ends_done,reduceCtorEq,false_and,exists_false,false_or]
      constructor
      · rintro ⟨rfl,rfl⟩
        exact ⟨e,rfl,rfl,rfl⟩
      · rintro ⟨_,rfl,same,rfl⟩
        cases same
        exact ⟨rfl,rfl⟩
  | waiting w resume ih =>
    simp only [andThen,ends_waiting,ih]
    constructor
    · rintro ⟨v,handed,⟨a,u,first,second⟩ | ⟨e,same,first⟩⟩
      · exact .inl ⟨a,u,⟨v,handed,first⟩,second⟩
      · exact .inr ⟨e,same,v,handed,first⟩
    · rintro (⟨a,u,⟨v,handed,first⟩,second⟩ | ⟨e,same,v,handed,first⟩)
      · exact ⟨v,handed,.inl ⟨a,u,first,second⟩⟩
      · exact ⟨v,handed,.inr ⟨e,same,first⟩⟩

/-- Two computations in sequence wait where the first one does, and where the second one does
behind the first. -/
theorem waits_andThen (run : Run α) (f : α → World → Run β) (u : World) :
    Waits (run.andThen f) u ↔ Waits run u ∨ ∃ a w, Ends run (.ok a) w ∧ Waits (f a w) u := by
  induction run with
  | done first w =>
    cases first with
    | ok a => simp [andThen,and_assoc]
    | error e => simp [andThen]
  | waiting w resume ih =>
    simp only [andThen,waits_waiting,ends_waiting,ih]
    constructor
    · rintro (same | ⟨v,handed,first | ⟨a,x,first,second⟩⟩)
      · exact .inl (.inl same)
      · exact .inl (.inr ⟨v,handed,first⟩)
      · exact .inr ⟨a,x,⟨v,handed,first⟩,second⟩
    · rintro ((same | ⟨v,handed,first⟩) | ⟨a,x,⟨v,handed,first⟩,second⟩)
      · exact .inl same
      · exact .inr ⟨v,handed,.inl first⟩
      · exact .inr ⟨v,handed,.inr ⟨a,x,first,second⟩⟩

theorem ends_atEnd (run : Run α) (f : World → World) (result : Except Interruption α) (after : World) :
    Ends (run.atEnd f) result after ↔ ∃ w, Ends run result w ∧ after = f w := by
  induction run with
  | done first w =>
    simp only [atEnd,ends_done]
    constructor
    · rintro ⟨rfl,rfl⟩
      exact ⟨w,⟨rfl,rfl⟩,rfl⟩
    · rintro ⟨_,⟨rfl,rfl⟩,rfl⟩
      exact ⟨rfl,rfl⟩
  | waiting w resume ih =>
    simp only [atEnd,ends_waiting,ih]
    constructor
    · rintro ⟨v,handed,u,ends,same⟩
      exact ⟨u,⟨v,handed,ends⟩,same⟩
    · rintro ⟨u,⟨v,handed,ends⟩,same⟩
      exact ⟨v,handed,u,ends,same⟩

theorem waits_atEnd (run : Run α) (f : World → World) (u : World) :
    Waits (run.atEnd f) u ↔ Waits run u := by
  induction run with
  | done first w => simp [atEnd]
  | waiting w resume ih => simp only [atEnd,waits_waiting,ih]

theorem ends_locate (span : Span) (run : Run α) (result : Except Interruption α) (after : World) :
    Ends (run.locate span) result after ↔
      ∃ inner, Ends run inner after ∧ result = inner.mapError (·.locate span) := by
  induction run with
  | done first w =>
    simp only [locate,ends_done]
    constructor
    · rintro ⟨rfl,rfl⟩
      exact ⟨first,⟨rfl,rfl⟩,rfl⟩
    · rintro ⟨_,⟨rfl,rfl⟩,rfl⟩
      exact ⟨rfl,rfl⟩
  | waiting w resume ih =>
    simp only [locate,ends_waiting,ih]
    constructor
    · rintro ⟨v,handed,inner,ends,same⟩
      exact ⟨inner,⟨v,handed,ends⟩,same⟩
    · rintro ⟨inner,⟨v,handed,ends⟩,same⟩
      exact ⟨v,handed,inner,ends,same⟩

theorem waits_locate (span : Span) (run : Run α) (u : World) :
    Waits (run.locate span) u ↔ Waits run u := by
  induction run with
  | done first w => simp [locate]
  | waiting w resume ih => simp only [locate,waits_waiting,ih]

end Run

theorem Script.checkKilled_eq (w : World) : checkKilled w =
    .done (if w.monitor.killRequested then .error .killed else .ok ())
      (if w.monitor.killRequested then { w with sprite := w.sprite.stopGlide } else w) := by
  unfold checkKilled
  split <;> rfl

end TurtleScript
