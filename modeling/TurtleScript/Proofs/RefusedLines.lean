import TurtleScript.Proofs.FailureReports

/-!
Lines that do not compile. Such a line leaves a session as it is, apart from the problems that are held of it
(`Session.runLine_refused`), and the next line that compiles starts without any of these (`Session.runLine_noted`). So a
session in which some lines did not compile cannot be told from one in which they were never entered
(`refused_lines_unseen`).
-/

namespace TurtleScript

def Program.compiles (source : String) : Bool := (Program.compile source).isOk

namespace Session

variable {s : Session}

def noted (s : Session) (problems : List Diagnostic) : Session := { s with diagnostics := problems }

theorem abandon_stopped (stopped : s.state ≠ .suspended) : s.abandon = s := by
  unfold abandon
  unfold state at stopped
  split
  case h_1 program resume phase =>
    rw [phase] at stopped
    exact absurd rfl stopped
  case h_2 => rfl

theorem runLine_refused (stopped : s.state ≠ .suspended) {line : String} {problems : List Diagnostic}
    (refused : Program.compile line = .error problems) : s.runLine line = s.noted problems := by
  unfold runLine
  rw [abandon_stopped stopped,refused]
  rfl

/-- Problems held of earlier lines make no difference to a line that compiles. -/
theorem runLine_noted (stopped : s.state ≠ .suspended) {line : String} {program : Program}
    (compiled : Program.compile line = .ok program) (problems : List Diagnostic) :
    (s.noted problems).runLine line = s.runLine line := by
  have stopped' : (s.noted problems).state ≠ .suspended := stopped
  unfold runLine
  rw [abandon_stopped stopped,abandon_stopped stopped',compiled]
  rfl

end Session

namespace Simulation

variable {sim : Simulation}

def noted (sim : Simulation) (problems : List Diagnostic) : Simulation :=
  { sim with session := sim.session.noted problems }

/-- What a host is shown of a line that it enters: the lines printed, and how far the session is afterwards. -/
structure Answer where
  line : String
  printed : List String
  state : Session.State
  outcome : Option Outcome
deriving DecidableEq

def Answer.compiles (answer : Answer) : Bool := Program.compiles answer.line

/-- What is shown of a line, if it is entered next. -/
def answer (sim : Simulation) (line : String) : Answer :=
  let after := sim.runLine line
  ⟨line, Shell.Repl.printedSince sim after, after.session.state, after.session.outcome?⟩

/-- Enters lines one after the other, up to one whose run has not come to its end after as many ticks as can be counted:
what is shown of each, and the simulation at the end. -/
def enter (sim : Simulation) : List String → List Answer × Simulation
  | [] => ([], sim)
  | line :: lines =>
    let after := sim.runLine line
    if after.session.state = .suspended then ([sim.answer line], after)
    else
      let (answers, last) := after.enter lines
      (sim.answer line :: answers, last)

theorem enter_stopped {line : String} (stopped : (sim.runLine line).session.state ≠ .suspended) (lines : List String) :
    sim.enter (line :: lines) =
      (sim.answer line :: ((sim.runLine line).enter lines).1,((sim.runLine line).enter lines).2) := by
  rw [enter]
  exact if_neg stopped

theorem enter_suspended {line : String} (suspended : (sim.runLine line).session.state = .suspended)
    (lines : List String) : sim.enter (line :: lines) = ([sim.answer line],sim.runLine line) := by
  rw [enter]
  exact if_pos suspended

theorem runLine_refused (stopped : sim.session.state ≠ .suspended) {line : String} {problems : List Diagnostic}
    (refused : Program.compile line = .error problems) : sim.runLine line = sim.noted problems := by
  unfold runLine
  rw [Session.runLine_refused stopped refused]
  have stopped' : (sim.noted problems).session.state ≠ .suspended := stopped
  exact settle_of_stopped stopped'

theorem runLine_noted (stopped : sim.session.state ≠ .suspended) {line : String} {program : Program}
    (compiled : Program.compile line = .ok program) (problems : List Diagnostic) :
    (sim.noted problems).runLine line = sim.runLine line := by
  unfold runLine
  exact congrArg (fun s => Simulation.settle ⟨s,sim.ticks⟩) (Session.runLine_noted stopped compiled problems)

/-- The lines that do not compile can be left out of those that are entered, whatever problems are held before. -/
theorem enter_noted (stopped : sim.session.state ≠ .suspended) (lines : List String) (problems : List Diagnostic) :
    ∃ held, ((sim.noted problems).enter lines).1.filter Answer.compiles =
        (sim.enter (lines.filter Program.compiles)).1 ∧
      ((sim.noted problems).enter lines).2 = (sim.enter (lines.filter Program.compiles)).2.noted held := by
  induction lines generalizing sim problems with
  | nil => exact ⟨problems,rfl,rfl⟩
  | cons line lines ih =>
    cases result : Program.compile line with
    | ok program =>
      have compiles : Program.compiles line = true := by
        unfold Program.compiles
        rw [result]
        rfl
      have ran := runLine_noted stopped result problems
      have shown : (sim.noted problems).answer line = sim.answer line := by
        unfold answer
        rw [ran]
        rfl
      have answered : (sim.answer line).compiles = true := compiles
      rw [List.filter_cons_of_pos compiles]
      by_cases suspended : (sim.runLine line).session.state = .suspended
      · rw [enter_suspended suspended,enter_suspended (by rw [ran]; exact suspended),shown,ran]
        exact ⟨(sim.runLine line).session.diagnostics,List.filter_cons_of_pos answered,rfl⟩
      · rw [enter_stopped suspended,enter_stopped (by rw [ran]; exact suspended),shown,ran]
        obtain ⟨held,answers,last⟩ := ih suspended (sim.runLine line).session.diagnostics
        refine ⟨held,?_,last⟩
        exact (List.filter_cons_of_pos answered).trans (congrArg (List.cons (sim.answer line)) answers)
    | error found =>
      have refused : ¬ Program.compiles line = true := by
        unfold Program.compiles
        rw [result]
        exact Bool.false_ne_true
      have unanswered : ¬ ((sim.noted problems).answer line).compiles = true := refused
      have stopped' : (sim.noted problems).session.state ≠ .suspended := stopped
      have left : (sim.noted problems).runLine line = sim.noted found := runLine_refused stopped' result
      obtain ⟨held,answers,last⟩ := ih stopped found
      rw [List.filter_cons_of_neg refused,enter_stopped (by rw [left]; exact stopped),left]
      exact ⟨held,(List.filter_cons_of_neg unanswered).trans answers,last⟩

/-- When all lines that do not compile are deleted from those that are entered into a session, each remaining line is
answered as before, with the same lines printed, the same state and the same outcome. At the end there are the same
variables, in a store where they lead to the same, the same turtle and the same number of ticks. -/
theorem refused_lines_unseen (stopped : sim.session.state ≠ .suspended) (lines : List String) :
    let all := sim.enter lines
    let kept := sim.enter (lines.filter Program.compiles)
    all.1.filter Answer.compiles = kept.1 ∧ all.2.session.visible = kept.2.session.visible ∧
      all.2.session.world.store = kept.2.session.world.store ∧
      all.2.session.world.sprite = kept.2.session.world.sprite ∧ all.2.ticks = kept.2.ticks := by
  intro all kept
  obtain ⟨held,answers,last⟩ := enter_noted stopped lines sim.session.diagnostics
  have same : all.2 = kept.2.noted held := last
  refine ⟨answers,?_,?_,?_,?_⟩
  · rw [same]
    rfl
  · rw [same]
    rfl
  · rw [same]
    rfl
  · rw [same]
    rfl

/-- Lines of which two do not compile, one before there is any program and one behind a line that fails. -/
def linesWithRefusals : List String :=
  ["var = 1;","var x = \"one\";","print(x); print(y);","print(x","print(x);"]

theorem refused_lines_unseen_failing :
    let sim : Simulation := .ofConfig {}
    sim.session.state ≠ .suspended ∧
      linesWithRefusals.filter Program.compiles = ["var x = \"one\";","print(x); print(y);","print(x);"] ∧
      (sim.enter linesWithRefusals).1.map Answer.printed = [[],[],["one"],[],["one"]] ∧
      (sim.enter linesWithRefusals).1.filter Answer.compiles =
        (sim.enter (linesWithRefusals.filter Program.compiles)).1 ∧
      (sim.enter linesWithRefusals).2.ticks = (sim.enter (linesWithRefusals.filter Program.compiles)).2.ticks := by
  intro sim
  have stopped : sim.session.state ≠ .suspended := by decide
  obtain ⟨answers,_,_,_,ticks⟩ := refused_lines_unseen stopped linesWithRefusals
  exact ⟨stopped,by decide +kernel,by decide +kernel,answers,ticks⟩

end Simulation

end TurtleScript
