import Mathlib.Data.List.Induction
import TurtleScript.Proofs.Lifecycle
import TurtleScript.Shell.Repl

/-!
Which failures a conversation reports. What becomes of a line (`Fate`) decides what is reported for it: a line that
was run is reported with the failure of its own run, and one that does not compile with the failure of the last run
before it, if that has not been forgotten since (`failure_reported_iff`). So a failure is reported again for every
line behind it that does not compile, and in no other case (`failure_reported_again` shows one).
-/

namespace TurtleScript

namespace Simulation

variable {sim : Simulation}

theorem step_sound (sound : sim.session.Sound) : sim.step.session.Sound := by
  have moved := sound.draw (·.update tick)
  unfold step
  dsimp only
  split
  · exact moved
  · exact moved.resume

theorem settleWithin_sound (sound : sim.session.Sound) (ticks : Nat) : (sim.settleWithin ticks).session.Sound := by
  induction ticks generalizing sim with
  | zero => exact sound
  | succ ticks ih =>
    unfold settleWithin
    split
    · exact ih (step_sound sound)
    · exact sound

theorem reset_sound (sim : Simulation) : sim.reset.session.Sound := by
  unfold reset
  exact (sim.session.compile_sound "").draw _

theorem settle_of_stopped (stopped : sim.session.state ≠ .suspended) : sim.settle = sim := by
  unfold settle
  cases Word.count with
  | zero => rfl
  | succ ticks =>
    unfold settleWithin
    rw [if_neg stopped]

end Simulation

namespace Session

variable {s : Session}

/-- A run that waits has not failed, and stopping it is not a failure either. -/
theorem Sound.failure_abandon (sound : s.Sound) : s.abandon.failure? = s.failure? := by
  cases phase : s.phase with
  | suspended program resume =>
    have killed := (sound.kill_suspended phase).2
    unfold Session.abandon
    rw [phase]
    dsimp only
    unfold failure? outcome?
    rw [killed,phase]
  | _ =>
    unfold Session.abandon
    rw [phase]

theorem Sound.runLine_refused (sound : s.Sound) {line : String} {problems : List Diagnostic}
    (refused : Program.compile line = .error problems) :
    (s.runLine line).failure? = s.failure? ∧ (s.runLine line).state ≠ .suspended := by
  have same : s.runLine line = { s.abandon with diagnostics := problems } := by
    unfold Session.runLine
    rw [refused]
  rw [same]
  refine ⟨sound.failure_abandon,fun suspended => ?_⟩
  have still := sound.abandon.2
  unfold state at suspended
  cases phase : s.abandon.phase with
  | suspended program resume => exact still program resume phase
  | _ => simp [phase] at suspended

end Session

namespace Shell

/-- The failure that is reported, if it is one. -/
def Report.failure? : Report → Option Failure
  | .problem _ => none
  | .failure own => some own

/-- What is written about errors for some reports on a source. -/
def Report.written (draw : Drawing) (name source : String) (reports : List Report) : String :=
  String.join (reports.map fun report => draw name source report.title report.message report.span?)

theorem Report.transcripts_err (draw : Drawing) (name source : String) (reports : List Report) :
    (transcripts draw name source reports).err = written draw name source reports := by
  have within : ∀ (rest : List Report) (before : Transcript),
      ((rest.map (transcript draw name source)).foldl (· ++ ·) before).err =
        before.err ++ written draw name source rest := by
    intro rest
    induction rest with
    | nil => exact fun before => String.append_empty.symm
    | cons report rest ih =>
      intro before
      rw [List.map_cons,List.foldl_cons,ih,written,written,List.map_cons,← List.singleton_append,String.join_append,
        ← String.append_assoc]
      rfl
  exact (within reports {}).trans String.empty_append

namespace Repl

/-- What a line of a conversation is. -/
inductive Entry where
  | blank
  | request (request : Request)
  | code (text : String)

def Entry.ofLine (line : String) : Entry :=
  let text := Text.trimmed line
  match text.toList with
  | [] => .blank
  | ':' :: _ => .request (.ofLine text)
  | _ => .code text

theorem step_eq (draw : Drawing) (sim : Simulation) (line : String) :
    step draw sim line =
      match Entry.ofLine line with
      | .blank => { sim := sim }
      | .request request => answer sim request
      | .code text =>
        { sim := sim.runLine text
          transcript := .lines (printedSince sim (sim.runLine text)) ++
            Report.transcripts draw sourceName text (evaluate sim text).2 } := by
  unfold step Entry.ofLine
  generalize Text.trimmed line = text
  dsimp only
  split <;> simp_all [evaluate]

/-- What becomes of a line. -/
inductive Fate where
  /-- It is blank, or a request that forgets nothing. -/
  | heard
  /-- It is a request to forget all definitions. -/
  | forgets
  /-- It does not compile. -/
  | refused
  /-- It was run, and the run failed or did not. -/
  | ran (failure : Option Failure)
deriving Repr, DecidableEq

/-- What becomes of a line, if it comes next in a conversation. -/
def fate (sim : Simulation) (line : String) : Fate :=
  match Entry.ofLine line with
  | .blank => .heard
  | .request request => if request = .reset then .forgets else .heard
  | .code text =>
    match Program.compile text with
    | .ok _ => .ran (sim.runLine text).session.failure?
    | .error _ => .refused

/-- What is reported for a line, if it comes next in a conversation. -/
def reports (sim : Simulation) (line : String) : List Report :=
  match Entry.ofLine line with
  | .code text => (evaluate sim text).2
  | _ => []

/-- The conversation behind a line, and whether it ends there. -/
def behind (sim : Simulation) (line : String) : Simulation × Bool :=
  match Entry.ofLine line with
  | .blank => (sim,false)
  | .request request => ((answer sim request).sim,(answer sim request).stop)
  | .code text => (sim.runLine text,false)

/-- What becomes of the lines of a conversation, up to its end. -/
def fates (sim : Simulation) : List String → List Fate
  | [] => []
  | line :: lines =>
    let (next,stop) := behind sim line
    fate sim line :: if stop then [] else fates next lines

/-- The lines of a conversation up to its end, each with what is reported for it. -/
def told (sim : Simulation) : List String → List (String × List Report)
  | [] => []
  | line :: lines =>
    let (next,stop) := behind sim line
    (Text.trimmed line,reports sim line) :: if stop then [] else told next lines

/-- The failures among the reports for each line of a conversation. -/
def failures (sim : Simulation) (lines : List String) : List (List Failure) :=
  (told sim lines).map (·.2.filterMap Report.failure?)

/-- All that is written about errors in a conversation, whose reports are drawn in some way. -/
def writtenFor (draw : Drawing) (sim : Simulation) (lines : List String) : String :=
  String.join ((told sim lines).map fun (line,reports) => Report.written draw sourceName line reports)

/-- The failure of the last run behind a line, which was another one before it. -/
def Fate.leaves (last : Option Failure) : Fate → Option Failure
  | .heard | .refused => last
  | .forgets => none
  | .ran failure => failure

/-- The failure reported for a line, where the last run before it had ended with another one. -/
def Fate.reported (last : Option Failure) : Fate → Option Failure
  | .heard | .forgets => none
  | .refused => last
  | .ran failure => failure

variable {sim : Simulation}

theorem evaluate_failures (sim : Simulation) (line : String) :
    (evaluate sim line).2.filterMap Report.failure? = (sim.runLine line).session.failure?.toList := by
  have none_of_problems : ∀ problems : List Diagnostic,
      (problems.map Report.problem).filterMap Report.failure? = [] := by
    intro problems
    rw [List.filterMap_map]
    exact List.filterMap_eq_nil_iff.mpr fun _ _ => rfl
  unfold evaluate
  dsimp only
  rw [List.filterMap_append,none_of_problems]
  cases (sim.runLine line).session.failure? <;> rfl

theorem trimmed_of_code {line text : String} (code : Entry.ofLine line = .code text) : Text.trimmed line = text := by
  unfold Entry.ofLine at code
  dsimp only at code
  split at code
  case h_3 => exact Entry.code.inj code
  all_goals cases code

theorem step_err (draw : Drawing) (sim : Simulation) (line : String) :
    (step draw sim line).transcript.err =
      Report.written draw sourceName (Text.trimmed line) (reports sim line) := by
  rw [step_eq]
  unfold reports
  cases entry : Entry.ofLine line with
  | blank => rfl
  | request request => cases request <;> rfl
  | code text =>
    rw [trimmed_of_code entry]
    exact String.empty_append.trans (Report.transcripts_err _ _ _ _)

theorem step_behind (draw : Drawing) (sim : Simulation) (line : String) :
    ((step draw sim line).sim,(step draw sim line).stop) = behind sim line := by
  rw [step_eq]
  unfold behind
  cases Entry.ofLine line <;> rfl

theorem behind_sound (sound : sim.session.Sound) (line : String) : (behind sim line).1.session.Sound := by
  unfold behind
  cases Entry.ofLine line with
  | blank => exact sound
  | request request =>
    cases request with
    | reset => exact Simulation.reset_sound sim
    | _ => exact sound
  | code text => exact Simulation.settleWithin_sound (sound.runLine _) _

theorem reset_failure (sim : Simulation) : sim.reset.session.failure? = none := by
  have compiles : (Program.compile "").isOk = true := by decide +kernel
  have ready : ∃ program, (sim.session.compile "").2.phase = .ready program := by
    unfold Session.compile
    cases compiled : Program.compile "" with
    | ok program => exact ⟨program,rfl⟩
    | error problems =>
      rw [compiled] at compiles
      cases compiles
  obtain ⟨program,phase⟩ := ready
  have same : sim.reset.session.phase = .ready program := phase
  unfold Session.failure? Session.outcome?
  rw [same]

/-- What becomes of a line decides which failure is reported for it and which is left behind. -/
theorem fate_decides (sound : sim.session.Sound) (line : String) :
    (reports sim line).filterMap Report.failure? =
      ((fate sim line).reported sim.session.failure?).toList ∧
    (behind sim line).1.session.failure? = (fate sim line).leaves sim.session.failure? := by
  unfold reports fate behind
  cases Entry.ofLine line with
  | blank => exact ⟨rfl,rfl⟩
  | request request =>
    cases request with
    | reset => exact ⟨rfl,reset_failure sim⟩
    | _ => exact ⟨rfl,rfl⟩
  | code text =>
    dsimp only
    rw [evaluate_failures]
    cases compiled : Program.compile text with
    | ok program => exact ⟨rfl,rfl⟩
    | error problems =>
      obtain ⟨kept,stopped⟩ := sound.runLine_refused compiled
      have same : (sim.runLine text).session.failure? = sim.session.failure? := by
        unfold Simulation.runLine
        rw [Simulation.settle_of_stopped stopped]
        exact kept
      rw [same]
      exact ⟨rfl,rfl⟩

/-! ### Whole conversations -/

def standing (last : Option Failure) (earlier : List Fate) : Option Failure := earlier.foldl Fate.leaves last

theorem converse_err (draw : Drawing) (sim : Simulation) (lines : List String) :
    (converse draw sim lines).err = writtenFor draw sim lines := by
  induction lines generalizing sim with
  | nil => rfl
  | cons line lines ih =>
    unfold converse writtenFor told
    dsimp only
    rw [← step_behind draw]
    dsimp only
    rw [List.map_cons,String.join_cons,← step_err]
    cases (step draw sim line).stop with
    | true =>
      rw [if_pos rfl,if_pos rfl]
      exact String.append_empty.symm
    | false =>
      rw [if_neg Bool.false_ne_true,if_neg Bool.false_ne_true]
      exact congrArg ((step draw sim line).transcript.err ++ ·) (ih (step draw sim line).sim)

/-- For every line of a conversation, the failure that stands where it comes is what it may be reported with. -/
theorem failures_at (lines : List String) (i : Nat) (sound : sim.session.Sound) :
    (failures sim lines)[i]? = (fates sim lines)[i]?.map fun fate =>
      (fate.reported (standing sim.session.failure? ((fates sim lines).take i))).toList := by
  induction lines generalizing sim i with
  | nil => rfl
  | cons line lines ih =>
    obtain ⟨reported,left⟩ := fate_decides sound line
    unfold failures told fates
    dsimp only
    cases i with
    | zero => simp [reported,standing]
    | succ i =>
      simp only [List.map_cons,List.getElem?_cons_succ,List.take_succ_cons,standing,List.foldl_cons,← left]
      split
      · rfl
      · exact ih i (behind_sound sound line)

/-- The last of some lines that was run failed, and nothing has been forgotten since. -/
def FailedLast (earlier : List Fate) (failure : Failure) : Prop :=
  ∃ j, earlier[j]? = some (.ran (some failure)) ∧
    ∀ k < earlier.length, j < k → earlier[k]? = some .heard ∨ earlier[k]? = some .refused

section
variable {earlier : List Fate} {fate : Fate} {failure : Failure}

/-- A line that is not run, and with which nothing is forgotten, goes behind the one that failed. -/
theorem failedLast_passing (passes : fate = .heard ∨ fate = .refused) :
    FailedLast (earlier ++ [fate]) failure ↔ FailedLast earlier failure := by
  have last : (earlier ++ [fate])[earlier.length]? = some fate := by simp
  have before : ∀ k < earlier.length, (earlier ++ [fate])[k]? = earlier[k]? :=
    fun k less => List.getElem?_append_left less
  unfold FailedLast
  rw [List.length_append,List.length_singleton]
  constructor
  · rintro ⟨j,failed,quiet⟩
    have inside : j < earlier.length := by
      have bound := (List.getElem?_eq_some_iff.mp failed).1
      rw [List.length_append,List.length_singleton] at bound
      rcases Nat.lt_succ_iff_lt_or_eq.mp bound with less | rfl
      · exact less
      · rw [last] at failed
        rcases passes with rfl | rfl <;> cases failed
    refine ⟨j,(before j inside).symm.trans failed,fun k less later => ?_⟩
    rw [← before k less]
    exact quiet k (Nat.lt_succ_of_lt less) later
  · rintro ⟨j,failed,quiet⟩
    have inside : j < earlier.length := (List.getElem?_eq_some_iff.mp failed).1
    refine ⟨j,(before j inside).trans failed,fun k less later => ?_⟩
    rcases Nat.lt_succ_iff_lt_or_eq.mp less with less | rfl
    · rw [before k less]
      exact quiet k less later
    · rw [last]
      rcases passes with rfl | rfl
      · exact .inl rfl
      · exact .inr rfl

theorem failedLast_final (final : ¬ (fate = .heard ∨ fate = .refused)) :
    FailedLast (earlier ++ [fate]) failure ↔ fate = .ran (some failure) := by
  have last : (earlier ++ [fate])[earlier.length]? = some fate := by simp
  constructor
  · rintro ⟨j,failed,quiet⟩
    have bound := (List.getElem?_eq_some_iff.mp failed).1
    rw [List.length_append,List.length_singleton] at bound quiet
    rcases Nat.lt_succ_iff_lt_or_eq.mp bound with less | rfl
    · have passed := quiet earlier.length (Nat.lt_succ_self _) less
      rw [last,Option.some_inj,Option.some_inj] at passed
      exact absurd passed final
    · rw [last] at failed
      exact Option.some_inj.mp failed
  · rintro rfl
    refine ⟨earlier.length,last,fun k less later => ?_⟩
    rw [List.length_append,List.length_singleton] at less
    omega

end

/-- A failure stands behind some lines if the last of them that was run failed with it, and nothing has been
forgotten since. -/
theorem standing_eq_some_iff (earlier : List Fate) (failure : Failure) :
    standing none earlier = some failure ↔ FailedLast earlier failure := by
  induction earlier using List.reverseRecOn with
  | nil => simp [standing,FailedLast]
  | append_singleton earlier fate ih =>
    have whole : standing none (earlier ++ [fate]) = fate.leaves (standing none earlier) := by
      simp [standing]
    rw [whole]
    by_cases passes : fate = .heard ∨ fate = .refused
    · have kept : fate.leaves (standing none earlier) = standing none earlier := by
        rcases passes with rfl | rfl <;> rfl
      rw [kept,ih,failedLast_passing passes]
    · rw [failedLast_final passes]
      cases fate with
      | ran own => exact ⟨congrArg Fate.ran,fun same => Fate.ran.inj same⟩
      | forgets => exact ⟨nofun,nofun⟩
      | heard => exact absurd (.inl rfl) passes
      | refused => exact absurd (.inr rfl) passes

/-- Whether a line was run and failed. -/
def Fate.failed : Fate → Bool
  | .ran failure => failure.isSome
  | _ => false

/-- How many lines of a conversation do not compile and come while a failure stands. -/
def repeats (last : Option Failure) : List Fate → Nat
  | [] => 0
  | fate :: later => (if fate = .refused ∧ last.isSome then 1 else 0) + repeats (fate.leaves last) later

theorem failures_count (lines : List String) (sound : sim.session.Sound) :
    (failures sim lines).flatten.length =
      (fates sim lines).countP Fate.failed + repeats sim.session.failure? (fates sim lines) := by
  induction lines generalizing sim with
  | nil => rfl
  | cons line lines ih =>
    obtain ⟨reported,left⟩ := fate_decides sound line
    have one : ((fate sim line).reported sim.session.failure?).toList.length =
        (if (fate sim line).failed then 1 else 0) +
          if fate sim line = .refused ∧ sim.session.failure?.isSome then 1 else 0 := by
      cases fate sim line with
      | ran failure => cases failure <;> simp [Fate.reported,Fate.failed]
      | refused => cases sim.session.failure? <;> simp [Fate.reported,Fate.failed]
      | _ => simp [Fate.reported,Fate.failed]
    have rest := ih (behind_sound sound line)
    rw [left] at rest
    unfold failures told fates
    dsimp only
    rw [List.map_cons,List.flatten_cons,List.length_append,reported,one,List.countP_cons,repeats]
    cases (behind sim line).2 with
    | true =>
      simp only [if_pos,List.map_nil,List.flatten_nil,List.length_nil,List.countP_nil,repeats]
      omega
    | false =>
      simp only [Bool.false_eq_true,if_false]
      rw [← failures,rest]
      omega

/-- All that a conversation writes about errors is what is told for its lines, however that is drawn. A failure is told
for a line if and only if the line was run and failed with it, or it does not compile and the last line before it that
was run failed with it, with nothing forgotten in between. So the failures told are as many as the lines that failed,
and one more for each line that does not compile where a failure stands. -/
theorem failure_reported_iff (draw : Drawing) (config : Config) (lines : List String) :
    let became := fates (.ofConfig config) lines
    let reported := failures (.ofConfig config) lines
    (converse draw (.ofConfig config) lines).err = writtenFor draw (.ofConfig config) lines ∧
    (∀ (i : Nat) (failure : Failure), (∃ found, reported[i]? = some found ∧ failure ∈ found) ↔
      became[i]? = some (.ran (some failure)) ∨
        (became[i]? = some .refused ∧ ∃ j < i, became[j]? = some (.ran (some failure)) ∧
          ∀ k < i, j < k → became[k]? = some .heard ∨ became[k]? = some .refused)) ∧
    reported.flatten.length = became.countP Fate.failed + repeats none became := by
  intro became reported
  have sound : (Simulation.ofConfig config).session.Sound := Session.ofConfig_sound config
  have fresh : (Simulation.ofConfig config).session.failure? = none := rfl
  refine ⟨converse_err draw _ lines,fun i failure => ?_,failures_count lines sound⟩
  have here := failures_at lines i sound
  rw [fresh] at here
  change reported[i]? = became[i]?.map _ at here
  have stands := standing_eq_some_iff (became.take i) failure
  have front : ∀ k < i, (became.take i)[k]? = became[k]? := fun k less => by simp [less]
  constructor
  · rintro ⟨found,at_i,mem⟩
    rw [here] at at_i
    obtain ⟨fate,isFate,rfl⟩ := Option.map_eq_some_iff.mp at_i
    have reported : fate.reported (standing none (became.take i)) = some failure := by simpa using mem
    cases fate with
    | ran own => exact .inl (isFate.trans (congrArg (some ∘ Fate.ran) reported))
    | refused =>
      obtain ⟨j,failed,quiet⟩ := stands.mp reported
      have size : (became.take i).length = i := by
        have bound := (List.getElem?_eq_some_iff.mp isFate).1
        rw [List.length_take]
        omega
      have less : j < i := size ▸ (List.getElem?_eq_some_iff.mp failed).1
      refine .inr ⟨isFate,j,less,(front j less).symm.trans failed,fun k before later => ?_⟩
      rw [← front k before]
      exact quiet k (size.symm ▸ before) later
    | _ => cases reported
  · rintro (own | ⟨refused,j,less,failed,quiet⟩)
    · exact ⟨[failure],here.trans (by rw [own]; rfl),.head _⟩
    · have stood : standing none (became.take i) = some failure := by
        refine stands.mpr ⟨j,(front j less).trans failed,fun k before later => ?_⟩
        have inside : k < i := Nat.lt_of_lt_of_le before (List.length_take_le _ _)
        rw [front k inside]
        exact quiet k inside later
      refine ⟨[failure],here.trans ?_,.head _⟩
      rw [refused,Option.map_some,Fate.reported,stood]
      rfl

/-- A line that fails, and behind it one that does not compile. -/
def failureThenRefusal : List String := ["print(x);","var x = ;"]

/-- One line was run and failed, and its failure is reported twice: for itself, and for the line behind it that
was never run. -/
theorem failure_reported_again :
    let failure : Failure := ⟨.undefinedVariable "x",some ⟨6,7,1⟩⟩
    fates (.ofConfig {}) failureThenRefusal = [.ran (some failure),.refused] ∧
      failures (.ofConfig {}) failureThenRefusal = [[failure],[failure]] := by
  decide +kernel

end Repl

end Shell

end TurtleScript
