import TurtleScript.Proofs.Evaluation
import TurtleScript.Proofs.Runs

/-!
Requests to stop. A run never makes or takes back such a request itself, and one that goes on after a
wait with a request standing is over at once, killed (`obedient_compositional`).
-/

namespace TurtleScript

namespace Run

variable {α β : Type}

/-- Up to its first wait or its end the run leaves the request alone, which is as given; and so it
does after each wait, where a standing request ends it. -/
def Obeys : Run α → Bool → Prop
  | .done _ w, asked => w.monitor.killRequested = asked
  | .waiting w resume, asked =>
    w.monitor.killRequested = asked ∧ ∀ v, Handed w v →
      (v.monitor.killRequested = true → ∃ x, resume v = .done (.error .killed) x) ∧
        (resume v).Obeys v.monitor.killRequested

/-- What is done to a run while it waits leaves it obeying, if it lets a killed run be killed. -/
theorem Obeys.through {w : World} {resume : World → Run α} {asked : Bool}
    (obeys : (waiting w resume).Obeys asked) (g : Run α → Run β)
    (killed : ∀ x, ∃ y, g (.done (.error .killed) x) = .done (.error .killed) y)
    (kept : ∀ v asked, (resume v).Obeys asked → (g (resume v)).Obeys asked) :
    (waiting w fun v => g (resume v)).Obeys asked := by
  refine ⟨obeys.1,fun v handed => ?_⟩
  obtain ⟨stops,later⟩ := obeys.2 v handed
  refine ⟨fun request => ?_,kept v _ later⟩
  obtain ⟨x,stopped⟩ := stops request
  obtain ⟨y,same⟩ := killed x
  exact ⟨y,by simp only [stopped,same]⟩

theorem Obeys.andThen {run : Run α} {f : α → World → Run β} {asked : Bool} (first : run.Obeys asked)
    (second : ∀ a w, (f a w).Obeys w.monitor.killRequested) : (run.andThen f).Obeys asked := by
  induction run generalizing asked with
  | done result w =>
    have kept : w.monitor.killRequested = asked := first
    cases result with
    | ok a =>
      rw [← kept]
      exact second a w
    | error e => exact kept
  | waiting w resume ih => exact first.through (·.andThen f) (fun x => ⟨x,rfl⟩) fun v _ => ih v

theorem Obeys.locate {run : Run α} {asked : Bool} (span : Span) (obeys : run.Obeys asked) :
    (run.locate span).Obeys asked := by
  induction run generalizing asked with
  | done result w => exact obeys
  | waiting w resume ih => exact obeys.through (·.locate span) (fun x => ⟨x,rfl⟩) fun v _ => ih v

theorem Obeys.atEnd {run : Run α} {asked : Bool} (obeys : run.Obeys asked) {f : World → World}
    (leaves : ∀ w, (f w).monitor.killRequested = w.monitor.killRequested) : (run.atEnd f).Obeys asked := by
  induction run generalizing asked with
  | done result w => exact (leaves w).trans obeys
  | waiting w resume ih => exact obeys.through (·.atEnd f) (fun x => ⟨f x,rfl⟩) fun v _ => ih v

end Run

namespace Script

variable {α β : Type}

def Obedient (m : Script α) : Prop := ∀ w, (m w).Obeys w.monitor.killRequested

theorem obedient_bind {m : Script α} {f : α → Script β} (first : Obedient m) (second : ∀ a, Obedient (f a)) :
    Obedient (m >>= f) :=
  fun w => (first w).andThen fun a v => second a v

theorem obedient_ofAction {action : Action α} (contained : action.Contained) : Obedient (ofAction action) := by
  intro w
  rw [ofAction_eq contained]
  exact rfl

theorem obedient_checkKilled : Obedient checkKilled := by
  intro w
  unfold checkKilled
  split <;> exact rfl

theorem obedient_awaitTurtle : Obedient awaitTurtle := by
  intro w
  unfold awaitTurtle
  split
  · refine ⟨rfl,fun v _ => ⟨fun request => ?_,obedient_checkKilled v⟩⟩
    exact ⟨_,if_pos request⟩
  · exact rfl

theorem obedient_checkpoint : Obedient checkpoint :=
  obedient_bind obedient_checkKilled fun _ =>
    obedient_bind (fun _ => rfl) fun _ => obedient_awaitTurtle

theorem obedient_inBlock (scope : FrameId) {length : Nat} {m : Script α} (inner : Obedient m) :
    Obedient (inBlock scope length m) :=
  fun _ => Run.Obeys.atEnd (inner _) fun _ => rfl

theorem obedient_inCall {m : Script α} (inner : Obedient m) : Obedient (inCall m) :=
  fun _ => Run.Obeys.atEnd (inner _) fun _ => rfl

theorem obedient_atStatement (index : Nat) (span : Span) :
    Obedient (change fun w => { w with monitor := w.monitor.atStatement index span }) := by
  intro w
  show (w.monitor.atStatement index span).killRequested = w.monitor.killRequested
  unfold Monitor.atStatement
  split <;> rfl

theorem obedient_compositional : Compositional Obedient (fun _ m => Obedient m) where
  pure _ _ := rfl
  look _ _ := rfl
  fail _ _ := rfl
  act := obedient_ofAction
  bind := obedient_bind
  locate span _ inner w := (inner w).locate span
  checkpoint := obedient_checkpoint
  inCall := obedient_inCall
  inBlock := obedient_inBlock
  nil _ _ _ := rfl
  cons _ span _ _ first later :=
    obedient_bind (obedient_atStatement _ span) fun _ => obedient_bind first later

end Script

theorem script_obedient (config : Config) (program : Program) : Script.Obedient (program.script config) := by
  intro w
  have statements := Script.obedient_compositional.statements config program
  have inner : Script.Obedient (Script.inBlock Store.global program.statements.length _) :=
    Script.obedient_inBlock Store.global statements
  exact Run.Obeys.atEnd (inner { w with callDepth := 0, scope := Store.global }) fun _ => rfl

end TurtleScript
