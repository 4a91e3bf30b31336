import TurtleScript.Proofs.Evaluation
import TurtleScript.Proofs.Runs

/-!
Where in a program a run is. Statements, expressions and calls may enter scopes, calls and lists of
statements, and come back to the very place they were started from, however they end
(`steady_compositional`). On the way they wait only in front of a statement that the host can see.
-/

namespace TurtleScript

/-- Two worlds with a program at one place: in one scope, in as many calls, and in the same lists of
statements. -/
structure SamePlace (before after : World) : Prop where
  scope : after.scope = before.scope
  callDepth : after.callDepth = before.callDepth
  blocks : after.monitor.blocks = before.monitor.blocks

theorem SamePlace.refl (w : World) : SamePlace w w := ⟨rfl,rfl,rfl⟩

theorem SamePlace.trans {u v w : World} (first : SamePlace u v) (second : SamePlace v w) : SamePlace u w :=
  ⟨second.scope.trans first.scope,second.callDepth.trans first.callDepth,second.blocks.trans first.blocks⟩

theorem Handed.samePlace {w v : World} (handed : Handed w v) : SamePlace w v :=
  ⟨handed.scope,handed.callDepth,handed.blocks⟩

/-- The host can see the statement that is about to be executed: it is one of the innermost list of
statements, and its place in the source text is known. -/
def OnStatement (w : World) : Prop :=
  ∃ top below, w.monitor.blocks = top :: below ∧ top.index < top.length ∧ top.span.isSome

theorem OnStatement.of_samePlace {w v : World} (on : OnStatement w) (same : SamePlace w v) :
    OnStatement v := by
  obtain ⟨top,below,blocks,inside,known⟩ := on
  exact ⟨top,below,same.blocks.trans blocks,inside,known⟩

theorem Monitor.atStatement_blocks {m : Monitor} {top : Cursor} {below : List Cursor} (index : Nat)
    (span : Span) (blocks : m.blocks = top :: below) :
    (m.atStatement index span).blocks = { top with index := index, span := some span } :: below := by
  simp only [Monitor.atStatement,blocks]

namespace Script

variable {α β : Type}

/-- A computation that ends where it was started from, and that waits in front of statements if it
was started in front of one. -/
structure Steady (m : Script α) : Prop where
  ends : ∀ {w : World} {result : Except Interruption α} {v : World}, (m w).Ends result v → SamePlace w v
  waits : ∀ {w u : World}, OnStatement w → (m w).Waits u → OnStatement u

/-- A computation that is over at once is steady if it leaves the place alone. -/
theorem steady_of_done {m : Script α} (result : World → Except Interruption α) (f : World → World)
    (done : ∀ w, m w = .done (result w) (f w)) (same : ∀ w, SamePlace w (f w)) : Steady m where
  ends := by
    intro w r v ends
    rw [done,Run.ends_done] at ends
    rw [ends.2]
    exact same w
  waits := by
    intro w u _ waits
    rw [done] at waits
    exact absurd waits Run.not_waits_done

theorem steady_pure (a : α) : Steady (pure a : Script α) :=
  steady_of_done (fun _ => .ok a) id (fun _ => rfl) SamePlace.refl

theorem steady_look (f : World → α) : Steady (look f) :=
  steady_of_done (fun w => .ok (f w)) id (fun _ => rfl) SamePlace.refl

theorem steady_fail (fault : Fault) : Steady (fail fault : Script α) :=
  steady_of_done (fun _ => .error (.failed { fault := fault })) id (fun _ => rfl) SamePlace.refl

theorem steady_change {f : World → World} (same : ∀ w, SamePlace w (f w)) : Steady (change f) :=
  steady_of_done (fun _ => .ok ()) f (fun _ => rfl) same

theorem steady_ofAction {action : Action α} (contained : action.Contained) : Steady (ofAction action) :=
  steady_of_done _ _ (ofAction_eq contained) fun _ => ⟨rfl,rfl,rfl⟩

theorem steady_bind {m : Script α} {f : α → Script β} (first : Steady m) (second : ∀ a, Steady (f a)) :
    Steady (m >>= f) where
  ends := by
    intro w result v ends
    rcases (Run.ends_andThen (m w) f result v).mp ends with ⟨a,x,firstEnds,secondEnds⟩ | ⟨e,_,firstEnds⟩
    · exact (first.ends firstEnds).trans ((second a).ends secondEnds)
    · exact first.ends firstEnds
  waits := by
    intro w u on waits
    rcases (Run.waits_andThen (m w) f u).mp waits with firstWaits | ⟨a,x,firstEnds,secondWaits⟩
    · exact first.waits on firstWaits
    · exact (second a).waits (on.of_samePlace (first.ends firstEnds)) secondWaits

theorem steady_locate (span : Span) {m : Script α} (inner : Steady m) : Steady (locate span m) where
  ends := by
    intro w result v ends
    obtain ⟨_,innerEnds,_⟩ := (Run.ends_locate span (m w) result v).mp ends
    exact inner.ends innerEnds
  waits := by
    intro w u on waits
    exact inner.waits on ((Run.waits_locate span (m w) u).mp waits)

theorem steady_checkKilled : Steady checkKilled := by
  refine steady_of_done _ _ checkKilled_eq fun w => ?_
  split <;> exact ⟨rfl,rfl,rfl⟩

theorem steady_awaitTurtle : Steady awaitTurtle where
  ends := by
    intro w result v ends
    unfold awaitTurtle at ends
    split at ends
    · obtain ⟨x,handed,rest⟩ := Run.ends_waiting.mp ends
      exact handed.samePlace.trans (steady_checkKilled.ends rest)
    · rw [Run.ends_done] at ends
      rw [ends.2]
      exact .refl w
  waits := by
    intro w u on waits
    unfold awaitTurtle at waits
    split at waits
    · rcases Run.waits_waiting.mp waits with rfl | ⟨x,handed,rest⟩
      · exact on
      · exact steady_checkKilled.waits (on.of_samePlace handed.samePlace) rest
    · exact absurd waits Run.not_waits_done

theorem steady_checkpoint : Steady checkpoint :=
  steady_bind steady_checkKilled fun _ =>
    steady_bind (steady_change fun _ => ⟨rfl,rfl,rfl⟩) fun _ => steady_awaitTurtle

/-- A computation over the statements of a list: started with the list innermost, it comes back to
the list and waits in front of statements only. -/
structure Fills (length : Nat) (m : Script α) : Prop where
  ends : ∀ {w : World} {top : Cursor} {below : List Cursor}, w.monitor.blocks = top :: below →
    top.length = length → ∀ {result : Except Interruption α} {v : World}, (m w).Ends result v →
      v.scope = w.scope ∧ v.callDepth = w.callDepth ∧ ∃ last, v.monitor.blocks = last :: below
  waits : ∀ {w : World} {top : Cursor} {below : List Cursor}, w.monitor.blocks = top :: below →
    top.length = length → ∀ {u : World}, (m w).Waits u → OnStatement u

theorem steady_inBlock (scope : FrameId) {length : Nat} {m : Script α} (fills : Fills length m) :
    Steady (inBlock scope length m) where
  ends := by
    intro w result v ends
    obtain ⟨x,inner,rfl⟩ := (Run.ends_atEnd _ _ _ _).mp ends
    obtain ⟨_,depth,last,blocks⟩ := fills.ends rfl rfl inner
    refine ⟨rfl,depth,?_⟩
    simp only [Monitor.exitBlock,blocks,List.tail_cons]
  waits := by
    intro w u _ waits
    exact fills.waits rfl rfl ((Run.waits_atEnd _ _ _).mp waits)

theorem steady_inCall {m : Script α} (inner : Steady m) : Steady (inCall m) where
  ends := by
    intro w result v ends
    obtain ⟨x,innerEnds,rfl⟩ := (Run.ends_atEnd _ _ _ _).mp ends
    have same := inner.ends innerEnds
    exact ⟨same.scope,rfl,same.blocks⟩
  waits := by
    intro w u on waits
    have innerWaits := (Run.waits_atEnd _ _ _).mp waits
    refine inner.waits ?_ innerWaits
    exact on

theorem fills_pure (a : α) (length : Nat) : Fills length (pure a : Script α) where
  ends := by
    intro w top below blocks _ result v ends
    obtain ⟨_,rfl⟩ := Run.ends_done.mp ends
    exact ⟨rfl,rfl,top,blocks⟩
  waits := by
    intro w top below _ _ u waits
    exact absurd waits Run.not_waits_done

theorem fills_cons {length index : Nat} (inside : index < length) (span : Span) {m : Script α}
    {rest : α → Script β} (first : Steady m) (later : ∀ a, Fills length (rest a)) :
    Fills length (do
      change fun w => { w with monitor := w.monitor.atStatement index span }
      rest (← m)) where
  ends := by
    intro w top below blocks fits result v ends
    have shown := Monitor.atStatement_blocks index span blocks
    rcases (Run.ends_andThen (m _) rest result v).mp ends with ⟨a,x,firstEnds,restEnds⟩ | ⟨e,_,firstEnds⟩
    · have same := first.ends firstEnds
      obtain ⟨scope,depth,last⟩ := (later a).ends (same.blocks.trans shown) fits restEnds
      exact ⟨scope.trans same.scope,depth.trans same.callDepth,last⟩
    · have same := first.ends firstEnds
      exact ⟨same.scope,same.callDepth,_,same.blocks.trans shown⟩
  waits := by
    intro w top below blocks fits u waits
    have shown := Monitor.atStatement_blocks index span blocks
    have on : OnStatement { w with monitor := w.monitor.atStatement index span } :=
      ⟨_,_,shown,by rw [fits]; exact inside,rfl⟩
    rcases (Run.waits_andThen (m _) rest u).mp waits with firstWaits | ⟨a,x,firstEnds,restWaits⟩
    · exact first.waits on firstWaits
    · exact (later a).waits ((first.ends firstEnds).blocks.trans shown) fits restWaits

/-- Coming back to the place one was started from carries over to whole programs. -/
theorem steady_compositional : Compositional Steady Fills where
  pure := steady_pure
  look := steady_look
  fail := steady_fail
  act := steady_ofAction
  bind := steady_bind
  locate := steady_locate
  checkpoint := steady_checkpoint
  inCall := steady_inCall
  inBlock := steady_inBlock
  nil := fills_pure
  cons := fills_cons

end Script

open Script

section
variable (config : Config) (budget : Nat)

theorem eval_steady (e : Expr) : Steady (e.eval (invokeWithin config budget)) :=
  steady_compositional.eval (steady_compositional.invokeWithin config budget) e

theorem evalAll_steady (es : List Expr) : Steady (Expr.evalAll (invokeWithin config budget) es) :=
  steady_compositional.evalAll (steady_compositional.invokeWithin config budget) es

theorem call_steady (function : Function) (args : List Value) :
    Steady (function.call (invokeWithin config budget) args) :=
  steady_compositional.call (steady_compositional.invokeWithin config budget) function args

theorem exec_steady (s : Stmt) : Steady (s.exec config (invokeWithin config budget)) :=
  steady_compositional.exec config (steady_compositional.invokeWithin config budget) s

end

end TurtleScript
