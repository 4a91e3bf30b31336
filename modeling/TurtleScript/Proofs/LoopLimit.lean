import TurtleScript.Evaluate

/-!
The limit on the rounds of a loop. A host answers every wait of a run, from all the worlds the run has
waited in; with it a computation goes from where it stands to a result and to where it stands then
(`Script.under`). A loop without a limit is told by rules, with how often it starts its body before it is
left (`Leaves`). The loop of the language agrees with it as long as that is at most the limit, and otherwise
fails in the test behind the last round allowed (`loop_limit_exact`). Tests and bodies are any computations
and a start is any world, so nothing but the rounds of this one loop is counted. They are counted in a machine
word (`Counts`), which comes to the same for every limit but the greatest word (`counts_iff`).
-/

namespace TurtleScript

/-- Where a computation stands: the world, and the worlds it has waited in so far, the last one first. -/
structure Standing where
  world : World
  waits : List World := []

/-- Where a run ends, and with which result, if it goes on from what the host makes of its waits. -/
def Run.under {α : Type} (host : List World → World) (run : Run α) (waits : List World) :
    Except Interruption α × Standing :=
  match run with
  | .done result w => (result,⟨w,waits⟩)
  | .waiting w resume => (resume (host (w :: waits))).under host (w :: waits)

/-- What a computation comes to from where it stands. -/
def Script.under {α : Type} (host : List World → World) (m : Script α) (p : Standing) :
    Except Interruption α × Standing :=
  (m p.world).under host p.waits

section
variable {α β : Type} {host : List World → World} {p q : Standing}

theorem Run.under_andThen {run : Run α} {waits : List World} {a : α} (comes : run.under host waits = (.ok a,q))
    (f : α → World → Run β) : (run.andThen f).under host waits = (f a q.world).under host q.waits := by
  induction run generalizing waits with
  | done result w =>
    cases comes
    rfl
  | waiting w resume ih => exact ih _ comes

theorem Run.under_andThen_error {run : Run α} {waits : List World} {e : Interruption}
    (comes : run.under host waits = (.error e,q)) (f : α → World → Run β) :
    (run.andThen f).under host waits = (.error e,q) := by
  induction run generalizing waits with
  | done result w =>
    cases comes
    rfl
  | waiting w resume ih => exact ih _ comes

theorem Run.under_locate {run : Run α} {waits : List World} {result : Except Interruption α}
    (comes : run.under host waits = (result,q)) (span : Span) :
    (run.locate span).under host waits = (result.mapError (·.locate span),q) := by
  induction run generalizing waits with
  | done result w =>
    cases comes
    rfl
  | waiting w resume ih => exact ih _ comes

theorem Script.under_locate {m : Script α} {result : Except Interruption α} (comes : m.under host p = (result,q))
    (span : Span) : (m.locate span).under host p = (result.mapError (·.locate span),q) :=
  Run.under_locate comes span

/-- Behind a computation with a result the next one goes on from where it stands. -/
theorem Script.under_bind {m : Script α} {a : α} (comes : m.under host p = (.ok a,q)) (f : α → Script β) :
    (m >>= f).under host p = (f a).under host q :=
  Run.under_andThen comes f

theorem Script.under_bind_error {m : Script α} {e : Interruption} (comes : m.under host p = (.error e,q))
    (f : α → Script β) : (m >>= f).under host p = (.error e,q) :=
  Run.under_andThen_error comes f

end

section
variable {host : List World → World} {test : Script Bool} {body : Script Flow} {limit n rounds : Nat}
  {p q : Standing} {result : Except Interruption Flow}

/-- A loop without a limit is left, having started its body `n` times: its test is false, its test or its
body is interrupted, its body returns, or it is stopped between two rounds. -/
inductive Leaves (host : List World → World) (test : Script Bool) (body : Script Flow) :
    Nat → Standing → Except Interruption Flow → Standing → Prop where
  | falsy {p q : Standing} (tested : test.under host p = (.ok false,q)) : Leaves host test body 0 p (.ok .next) q
  | untested {p q : Standing} {e : Interruption} (tested : test.under host p = (.error e,q)) :
      Leaves host test body 0 p (.error e) q
  | returned {p q r : Standing} {value : Value} (tested : test.under host p = (.ok true,q))
      (gone : body.under host q = (.ok (.returned value),r)) : Leaves host test body 1 p (.ok (.returned value)) r
  | broken {p q r : Standing} {e : Interruption} (tested : test.under host p = (.ok true,q))
      (gone : body.under host q = (.error e,r)) : Leaves host test body 1 p (.error e) r
  | stopped {p q r s : Standing} {e : Interruption} (tested : test.under host p = (.ok true,q))
      (gone : body.under host q = (.ok .next,r)) (passed : Script.checkpoint.under host r = (.error e,s)) :
      Leaves host test body 1 p (.error e) s
  | round {n : Nat} {p q r s t : Standing} {result : Except Interruption Flow}
      (tested : test.under host p = (.ok true,q)) (gone : body.under host q = (.ok .next,r))
      (passed : Script.checkpoint.under host r = (.ok (),s)) (later : Leaves host test body n s result t) :
      Leaves host test body (n + 1) p result t

/-- So many rounds of a loop are complete: each time the test was true, the body went to its end and nothing
stopped the loop behind it. -/
inductive Rounds (host : List World → World) (test : Script Bool) (body : Script Flow) :
    Nat → Standing → Standing → Prop where
  | none (p : Standing) : Rounds host test body 0 p p
  | round {n : Nat} {p q r s t : Standing} (tested : test.under host p = (.ok true,q))
      (gone : body.under host q = (.ok .next,r)) (passed : Script.checkpoint.under host r = (.ok (),s))
      (later : Rounds host test body n s t) : Rounds host test body (n + 1) p t

open Script

theorem repeatWhile_round (tested : test.under host p = (.ok true,q)) :
    (repeatWhile limit test body (rounds + 1)).under host p =
      (body >>= fun flow => match flow with
        | .returned value => pure (.returned value)
        | .next => checkpoint >>= fun _ => repeatWhile limit test body rounds).under host q := by
  rw [repeatWhile,under_bind tested]
  rfl

theorem Leaves.repeatWhile (leaves : Leaves host test body n p result q) :
    ∀ rounds, n ≤ rounds → (repeatWhile limit test body rounds).under host p = (result,q) := by
  induction leaves with
  | falsy tested => rintro (_ | rounds) _ <;> exact under_bind tested _
  | untested tested => rintro (_ | rounds) _ <;> exact under_bind_error tested _
  | returned tested gone =>
    rintro (_ | rounds) few
    · exact absurd few (by omega)
    · rw [repeatWhile_round tested,under_bind gone]
      rfl
  | broken tested gone =>
    rintro (_ | rounds) few
    · exact absurd few (by omega)
    · rw [repeatWhile_round tested,under_bind_error gone]
  | stopped tested gone passed =>
    rintro (_ | rounds) few
    · exact absurd few (by omega)
    · rw [repeatWhile_round tested,under_bind gone]
      exact under_bind_error passed _
  | round tested gone passed later ih =>
    rintro (_ | rounds) few
    · exact absurd few (by omega)
    · rw [repeatWhile_round tested,under_bind gone]
      exact (under_bind passed _).trans (ih rounds (by omega))

/-- A loop that would start its body once more than allowed completes the rounds that it is allowed and then
fails behind one more test. -/
theorem repeatWhile_overrun (limit : Nat) : ∀ rounds p,
    (∀ n result q, Leaves host test body n p result q → rounds < n) →
      ∃ q r, Rounds host test body rounds p q ∧ test.under host q = (.ok true,r) ∧
        (repeatWhile limit test body rounds).under host p =
          (.error (.failed { fault := .infiniteLoop limit }),r) := by
  intro rounds
  induction rounds with
  | zero =>
    intro p more
    rcases tested : test.under host p with ⟨e | _ | _,q⟩
    · exact absurd (more _ _ _ (.untested tested)) (Nat.lt_irrefl 0)
    · exact absurd (more _ _ _ (.falsy tested)) (Nat.lt_irrefl 0)
    · exact ⟨p,q,.none p,tested,under_bind tested _⟩
  | succ rounds ih =>
    intro p more
    rcases tested : test.under host p with ⟨e | _ | _,q⟩
    · exact absurd (more _ _ _ (.untested tested)) (by omega)
    · exact absurd (more _ _ _ (.falsy tested)) (by omega)
    rcases gone : body.under host q with ⟨e | _ | value,r⟩
    · exact absurd (more _ _ _ (.broken tested gone)) (by omega)
    · rcases passed : Script.checkpoint.under host r with ⟨e | ⟨⟩,s⟩
      · exact absurd (more _ _ _ (.stopped tested gone passed)) (by omega)
      · obtain ⟨t,u,complete,again,fails⟩ := ih s fun n result t leaves =>
          Nat.lt_of_succ_lt_succ (more _ _ _ (.round tested gone passed leaves))
        refine ⟨t,u,.round tested gone passed complete,again,?_⟩
        rw [repeatWhile_round tested,under_bind gone]
        exact (under_bind passed _).trans fails
    · exact absurd (more _ _ _ (.returned tested gone)) (by omega)

/-! ### Counting in words -/

/-- The word behind another one; there is none behind the greatest, and it goes round. -/
def Word.next (n : Nat) : Nat := (n + 1) % Word.count

theorem Word.next_eq {n : Nat} (less : n < Word.last) : Word.next n = n + 1 := by
  unfold Word.last at less
  unfold Word.next Word.count
  omega

/-- A loop that counts up the rounds it has begun, in a word, and compares the count with the limit. -/
inductive Counts (host : List World → World) (limit : Nat) (test : Script Bool) (body : Script Flow) :
    Nat → Standing → Except Interruption Flow → Standing → Prop where
  | falsy {begun : Nat} {p q : Standing} (tested : test.under host p = (.ok false,q)) :
      Counts host limit test body begun p (.ok .next) q
  | untested {begun : Nat} {p q : Standing} {e : Interruption} (tested : test.under host p = (.error e,q)) :
      Counts host limit test body begun p (.error e) q
  | spent {begun : Nat} {p q : Standing} (tested : test.under host p = (.ok true,q))
      (beyond : limit < Word.next begun) :
      Counts host limit test body begun p (.error (.failed { fault := .infiniteLoop limit })) q
  | returned {begun : Nat} {p q r : Standing} {value : Value} (tested : test.under host p = (.ok true,q))
      (allowed : Word.next begun ≤ limit) (gone : body.under host q = (.ok (.returned value),r)) :
      Counts host limit test body begun p (.ok (.returned value)) r
  | broken {begun : Nat} {p q r : Standing} {e : Interruption} (tested : test.under host p = (.ok true,q))
      (allowed : Word.next begun ≤ limit) (gone : body.under host q = (.error e,r)) :
      Counts host limit test body begun p (.error e) r
  | stopped {begun : Nat} {p q r s : Standing} {e : Interruption} (tested : test.under host p = (.ok true,q))
      (allowed : Word.next begun ≤ limit) (gone : body.under host q = (.ok .next,r))
      (passed : Script.checkpoint.under host r = (.error e,s)) : Counts host limit test body begun p (.error e) s
  | round {begun : Nat} {p q r s t : Standing} {result : Except Interruption Flow}
      (tested : test.under host p = (.ok true,q)) (allowed : Word.next begun ≤ limit)
      (gone : body.under host q = (.ok .next,r)) (passed : Script.checkpoint.under host r = (.ok (),s))
      (later : Counts host limit test body (Word.next begun) s result t) :
      Counts host limit test body begun p result t

section
variable {begun : Nat}

/-- As long as the count has a word behind it, the loop that counts up does what the one does that counts down. -/
theorem Counts.repeatWhile (fits : limit < Word.last) (counts : Counts host limit test body begun p result q) :
    ∀ rounds, begun + rounds = limit → (Script.repeatWhile limit test body rounds).under host p = (result,q) := by
  induction counts with
  | falsy tested => rintro (_ | rounds) _ <;> exact under_bind tested _
  | untested tested => rintro (_ | rounds) _ <;> exact under_bind_error tested _
  | spent tested beyond =>
    rintro (_ | rounds) left
    · exact under_bind tested _
    · rw [Word.next_eq (by omega)] at beyond
      omega
  | returned tested allowed gone =>
    rintro (_ | rounds) left
    · rw [Word.next_eq (by omega)] at allowed
      omega
    · rw [repeatWhile_round tested,under_bind gone]
      rfl
  | broken tested allowed gone =>
    rintro (_ | rounds) left
    · rw [Word.next_eq (by omega)] at allowed
      omega
    · rw [repeatWhile_round tested,under_bind_error gone]
  | stopped tested allowed gone passed =>
    rintro (_ | rounds) left
    · rw [Word.next_eq (by omega)] at allowed
      omega
    · rw [repeatWhile_round tested,under_bind gone]
      exact under_bind_error passed _
  | @round begun _ _ _ _ _ _ tested allowed gone passed later ih =>
    rintro (_ | rounds) left
    · rw [Word.next_eq (by omega)] at allowed
      omega
    · have next : Word.next begun = begun + 1 := Word.next_eq (by omega)
      rw [repeatWhile_round tested,under_bind gone]
      exact (under_bind passed _).trans (ih rounds (by omega))

/-- The loop that counts up always comes to an end, where the one does that counts down. -/
theorem counts_repeatWhile (fits : limit < Word.last) : ∀ rounds begun p, begun + rounds = limit →
    Counts host limit test body begun p ((repeatWhile limit test body rounds).under host p).1
      ((repeatWhile limit test body rounds).under host p).2 := by
  intro rounds
  induction rounds with
  | zero =>
    intro begun p left
    rcases tested : test.under host p with ⟨e | _ | _,q⟩
    · rw [repeatWhile,under_bind_error tested]
      exact .untested tested
    · rw [repeatWhile,under_bind tested]
      exact .falsy tested
    · rw [repeatWhile,under_bind tested]
      refine .spent tested ?_
      rw [Word.next_eq (by omega)]
      omega
  | succ rounds ih =>
    intro begun p left
    have next : Word.next begun = begun + 1 := Word.next_eq (by omega)
    have allowed : Word.next begun ≤ limit := by omega
    rcases tested : test.under host p with ⟨e | _ | _,q⟩
    · rw [repeatWhile,under_bind_error tested]
      exact .untested tested
    · rw [repeatWhile,under_bind tested]
      exact .falsy tested
    rw [repeatWhile_round tested]
    rcases gone : body.under host q with ⟨e | _ | value,r⟩
    · rw [under_bind_error gone]
      exact .broken tested allowed gone
    · rw [under_bind gone]
      rcases passed : Script.checkpoint.under host r with ⟨e | ⟨⟩,s⟩
      · dsimp only
        rw [under_bind_error passed]
        exact .stopped tested allowed gone passed
      · dsimp only
        rw [under_bind passed]
        exact .round tested allowed gone passed (ih _ s (by omega))
    · rw [under_bind gone]
      exact .returned tested allowed gone

/-- Counting rounds in a word comes to the same as the loop of the language, unless the limit is the greatest word. -/
theorem counts_iff (fits : limit < Word.last) :
    Counts host limit test body 0 p result q ↔ (repeatWhile limit test body limit).under host p = (result,q) := by
  refine ⟨fun counts => counts.repeatWhile fits limit (Nat.zero_add _),fun comes => ?_⟩
  have counts : Counts host limit test body 0 p ((repeatWhile limit test body limit).under host p).1 _ :=
    counts_repeatWhile fits limit 0 p (Nat.zero_add _)
  rw [comes] at counts
  exact counts

end

end

/-- Whether a test of the language is true. -/
def Expr.holds (invoke : Invoke) (test : Expr) : Script Bool := do return (← test.eval invoke).truthy

/-- A loop statement without a limit is left, having started its body `n` times. It is stopped in front of its
first test, or left in one of its rounds; what goes wrong in these is reported at the loop, unless a place is
known. -/
inductive LeavesLoop (config : Config) (invoke : Invoke) (host : List World → World) (test : Expr) (body : Stmt)
    (span : Span) : Nat → Standing → Except Interruption Flow → Standing → Prop where
  | stopped {p q : Standing} {e : Interruption} (passed : Script.checkpoint.under host p = (.error e,q)) :
      LeavesLoop config invoke host test body span 0 p (.error e) q
  | looped {n : Nat} {p q r : Standing} {result : Except Interruption Flow}
      (passed : Script.checkpoint.under host p = (.ok (),q))
      (leaves : Leaves host (test.holds invoke) (body.exec config invoke) n q result r) :
      LeavesLoop config invoke host test body span n p (result.mapError (·.locate span)) r

/-- A loop statement that counts the rounds it has begun in a word. -/
inductive CountsLoop (config : Config) (invoke : Invoke) (host : List World → World) (test : Expr) (body : Stmt)
    (span : Span) : Standing → Except Interruption Flow → Standing → Prop where
  | stopped {p q : Standing} {e : Interruption} (passed : Script.checkpoint.under host p = (.error e,q)) :
      CountsLoop config invoke host test body span p (.error e) q
  | looped {p q r : Standing} {result : Except Interruption Flow}
      (passed : Script.checkpoint.under host p = (.ok (),q))
      (counts : Counts host config.maxLoopIterations (test.holds invoke) (body.exec config invoke) 0 q result r) :
      CountsLoop config invoke host test body span p (result.mapError (·.locate span)) r

/-- A loop statement does what one does that counts its rounds in a word, unless the limit is the greatest word. -/
theorem countsLoop_iff {config : Config} (fits : config.maxLoopIterations < Word.last) (invoke : Invoke)
    (host : List World → World) (test : Expr) (body : Stmt) (span : Span) (p : Standing)
    (result : Except Interruption Flow) (q : Standing) :
    CountsLoop config invoke host test body span p result q ↔
      ((Stmt.loop test body span).exec config invoke).under host p = (result,q) := by
  rw [Stmt.exec]
  constructor
  · rintro (passed | ⟨passed,counts⟩)
    · exact Script.under_bind_error passed _
    · rw [Script.under_bind passed]
      exact Script.under_locate ((counts_iff fits).mp counts) span
  · intro comes
    rcases passed : Script.checkpoint.under host p with ⟨e | ⟨⟩,start⟩
    · rw [Script.under_bind_error passed] at comes
      cases comes
      exact .stopped passed
    · rcases looped : (Script.repeatWhile config.maxLoopIterations (test.holds invoke) (body.exec config invoke)
        config.maxLoopIterations).under host start with ⟨outcome,r⟩
      have located := Script.under_locate looped span
      rw [Script.under_bind passed] at comes
      cases comes.symm.trans located
      exact .looped passed ((counts_iff fits).mpr looped)

/-- The limit on loops is exact. A loop that is left before its body has been started more often than allowed
ends as it does without a limit: with the same result and world and the same waits. Any other loop completes as
many rounds as allowed, finds its test true once more, and then fails with the limit, and all that happened
until then stays. The limit is less than the greatest word, so all that is so of a loop that counts its rounds
in a word as well: it never ends otherwise. -/
theorem loop_limit_exact (config : Config) (fits : config.maxLoopIterations < Word.last) (invoke : Invoke)
    (host : List World → World) (test : Expr) (body : Stmt) (span : Span) (p : Standing) :
    (∀ result q, CountsLoop config invoke host test body span p result q ↔
      ((Stmt.loop test body span).exec config invoke).under host p = (result,q)) ∧
    (∀ n result q, LeavesLoop config invoke host test body span n p result q → n ≤ config.maxLoopIterations →
      ((Stmt.loop test body span).exec config invoke).under host p = (result,q)) ∧
    ((∀ n result q, LeavesLoop config invoke host test body span n p result q → config.maxLoopIterations < n) →
      ∃ start last final, Script.checkpoint.under host p = (.ok (),start) ∧
        Rounds host (test.holds invoke) (body.exec config invoke) config.maxLoopIterations start last ∧
        (test.holds invoke).under host last = (.ok true,final) ∧
        ((Stmt.loop test body span).exec config invoke).under host p =
          (.error (.failed { fault := .infiniteLoop config.maxLoopIterations, span := some span }),final)) := by
  refine ⟨countsLoop_iff fits invoke host test body span p,?_,?_⟩
  · rintro n result q (passed | ⟨passed,leaves⟩) few
    · rw [Stmt.exec]
      exact Script.under_bind_error passed _
    · rw [Stmt.exec,Script.under_bind passed]
      exact Script.under_locate (leaves.repeatWhile _ few) span
  · intro more
    rcases passed : Script.checkpoint.under host p with ⟨e | ⟨⟩,start⟩
    · exact absurd (more _ _ _ (.stopped passed)) (by omega)
    · obtain ⟨last,final,complete,again,fails⟩ := repeatWhile_overrun config.maxLoopIterations
        config.maxLoopIterations start fun n result q leaves => more _ _ _ (.looped passed leaves)
      refine ⟨start,last,final,rfl,complete,again,?_⟩
      rw [Stmt.exec,Script.under_bind passed]
      exact Script.under_locate fails span

/-- A world in which the turtle stands still and nobody has asked for a stop. -/
def stillWorld : World := { sprite := .ofConfig {}, monitor := { scope := some Store.global } }

/-- With two rounds allowed, a loop whose test is false is left at once and one that is never left fails. -/
theorem loop_limit_exact_two :
    let config : Config := { maxLoopIterations := 2 }
    let host (waits : List World) : World := waits.headD stillWorld
    let body : Stmt := .expression (.literal .null default) default
    config.maxLoopIterations < Word.last ∧
    (LeavesLoop config (invoke config) host (.literal (.bool false) default) body default 0 ⟨stillWorld,[]⟩
        (.ok .next) ⟨stillWorld,[]⟩ ∧
      ((Stmt.loop (.literal (.bool false) default) body default).exec config (invoke config)).under host
        ⟨stillWorld,[]⟩ = (.ok .next,⟨stillWorld,[]⟩)) ∧
    (∀ n result q, ¬ LeavesLoop config (invoke config) host (.literal (.bool true) default) body default n
        ⟨stillWorld,[]⟩ result q) ∧
      ∃ final, ((Stmt.loop (.literal (.bool true) default) body default).exec config (invoke config)).under host
          ⟨stillWorld,[]⟩ = (.error (.failed { fault := .infiniteLoop 2, span := some default }),final) ∧
        CountsLoop config (invoke config) host (.literal (.bool true) default) body default ⟨stillWorld,[]⟩
          (.error (.failed { fault := .infiniteLoop 2, span := some default })) final := by
  intro config host body
  have fits : config.maxLoopIterations < Word.last := by decide
  have left : LeavesLoop config (invoke config) host (.literal (.bool false) default) body default 0 ⟨stillWorld,[]⟩
      (.ok .next) ⟨stillWorld,[]⟩ := .looped rfl (.falsy rfl)
  -- The loop comes round to where it was, in the same world.
  have endless : ∀ n p result q, Leaves host (Expr.holds (invoke config) (.literal (.bool true) default))
      (body.exec config (invoke config)) n p result q → p ≠ ⟨stillWorld,[]⟩ := by
    intro n p result q leaves
    induction leaves with
    | falsy tested => rintro rfl; cases tested
    | untested tested => rintro rfl; cases tested
    | returned tested gone => rintro rfl; cases tested; cases gone
    | broken tested gone => rintro rfl; cases tested; cases gone
    | stopped tested gone passed => rintro rfl; cases tested; cases gone; cases passed
    | round tested gone passed _ ih => rintro rfl; cases tested; cases gone; cases passed; exact ih rfl
  have never : ∀ n result q, ¬ LeavesLoop config (invoke config) host (.literal (.bool true) default) body default n
      ⟨stillWorld,[]⟩ result q := by
    rintro n result q (passed | ⟨passed,leaves⟩)
    · cases passed
    · cases passed
      exact endless _ _ _ _ leaves rfl
  obtain ⟨counted,_,overrun⟩ := loop_limit_exact config fits (invoke config) host (.literal (.bool true) default) body
    default ⟨stillWorld,[]⟩
  obtain ⟨_,_,final,_,_,_,fails⟩ := overrun fun n result q leaves => absurd leaves (never n result q)
  have ends := (loop_limit_exact config fits (invoke config) host (.literal (.bool false) default) body default
    ⟨stillWorld,[]⟩).2.1 0 _ _ left (Nat.zero_le _)
  exact ⟨fits,⟨left,ends⟩,never,final,fails,(counted _ _).mpr fails⟩

end TurtleScript
