import TurtleScript.Proofs.LibrarySteps
import TurtleScript.Proofs.Scene

/-!
Steps that do not look at scopes. Such a step does the same whatever scopes there are, and leaves them as they are
(`Action.Frameless`). All that the library does is of this kind (`Builtin.frameless_apply`), and so it reaches the scene
alone (`Builtin.contained_apply`).
-/

namespace TurtleScript

def Scene.withFrames (s : Scene) (frames : Array Frame) : Scene := { s with store := s.store.withFrames frames }

namespace Action

variable {α β : Type}

/-- The step does the same whatever scopes there are, and leaves them as they are. -/
structure Frameless (action : Action α) : Prop where
  contained : action.Contained
  same : ∀ (s : Scene) (frames : Array Frame), action.onScene (s.withFrames frames) =
    ((action.onScene s).1,(action.onScene s).2.withFrames frames)

theorem Frameless.frames {action : Action α} (frameless : action.Frameless) (s : Scene) :
    (action.onScene s).2.store.frames = s.store.frames :=
  congrArg (fun out => out.2.store.frames) (frameless.same s s.store.frames)

theorem frameless_pure (a : α) : (pure a : Action α).Frameless := ⟨contained_pure a,fun _ _ => rfl⟩

theorem frameless_fail (fault : Fault) : (fail fault : Action α).Frameless := ⟨contained_fail fault,fun _ _ => rfl⟩

theorem frameless_bind {action : Action α} {next : α → Action β} (first : action.Frameless)
    (second : ∀ a, (next a).Frameless) : (action >>= next).Frameless := by
  have contained : ∀ a, (next a).Contained := fun a => (second a).contained
  refine ⟨contained_bind first.contained contained,fun s frames => ?_⟩
  rw [onScene_bind action contained,onScene_bind action contained,first.same]
  obtain ⟨out,t⟩ := action.onScene s
  cases out with
  | ok a => exact (second a).same t frames
  | error fault => rfl

theorem frameless_read {f : Store → α} (same : ∀ store frames, f (store.withFrames frames) = f store) :
    (read f).Frameless :=
  ⟨contained_read f,fun s frames => congrArg (fun a => (Except.ok a,s.withFrames frames)) (same s.store frames)⟩

theorem frameless_inquire {f : Store → Except Fault α} (same : ∀ store frames, f (store.withFrames frames) = f store) :
    (inquire f).Frameless := by
  refine ⟨contained_inquire f,fun s frames => ?_⟩
  rw [onScene_inquire,onScene_inquire]
  exact congrArg (fun out => (out,s.withFrames frames)) (same s.store frames)

theorem frameless_renew {f : Store → α × Store}
    (same : ∀ store frames, f (store.withFrames frames) = ((f store).1,(f store).2.withFrames frames)) :
    (renew f).Frameless := by
  refine ⟨contained_renew f,fun s frames => ?_⟩
  rw [onScene_renew,onScene_renew]
  exact congrArg (fun out : α × Store => (Except.ok out.1,Scene.mk out.2 s.sprite s.printed)) (same s.store frames)

theorem frameless_draw (f : Turtle.Sprite → Turtle.Sprite) : (draw f).Frameless := ⟨contained_draw f,fun _ _ => rfl⟩

theorem frameless_print (line : String) : (print line).Frameless := ⟨contained_print line,fun _ _ => rfl⟩

theorem frameless_observe (f : Turtle.Sprite → α) : (observe f).Frameless := ⟨contained_observe f,fun _ _ => rfl⟩

theorem frameless_acting : Acting Frameless where
  pure := frameless_pure
  fail := frameless_fail
  bind := frameless_bind
  read := frameless_read
  inquire := frameless_inquire
  renew := frameless_renew
  observe := frameless_observe
  draw _ := frameless_draw _
  print := frameless_print

end Action

namespace Builtin

theorem frameless_apply (function : Builtin) (args : List Value) : (apply function args).Frameless :=
  Action.frameless_acting.apply function args

theorem contained_apply (function : Builtin) (args : List Value) : (apply function args).Contained :=
  (frameless_apply function args).contained

end Builtin

end TurtleScript
