import TurtleScript.Session
import TurtleScript.Word

/-!
A session without a screen. Time passes in ticks of a sixtieth of a second, as long as the program
waits for the turtle.
-/

namespace TurtleScript

/-- A session and the ticks that passed in it. -/
structure Simulation where
  session : Session
  ticks : Nat := 0

namespace Simulation

def tick : Float := 1.0 / 60.0

def ofConfig (config : Config) : Simulation := { session := .ofConfig config }

def elapsed (sim : Simulation) : Float := Float.ofNat sim.ticks * tick

/-- One tick later; the program goes on as soon as the turtle stands still. -/
def step (sim : Simulation) : Simulation :=
  let moved := sim.session.draw (·.update tick)
  { session := if moved.gliding then moved else moved.resume, ticks := sim.ticks + 1 }

/-- Lets time pass until the program has ended, for at most the given number of ticks. -/
def settleWithin (sim : Simulation) : Nat → Simulation
  | 0 => sim
  | n + 1 => if sim.session.state = .suspended then sim.step.settleWithin n else sim

/-- Lets time pass until the program has ended, for as many ticks as a word can count. -/
def settle (sim : Simulation) : Simulation := sim.settleWithin Word.count

/-- Compiles a program for a turtle back at home; says whether it compiled. -/
def compile (sim : Simulation) (source : String) : Bool × Simulation :=
  let (ok, session) := (sim.session.draw (·.reset)).compile source
  (ok, { session := session })

/-- Runs the program to its end. -/
def run (sim : Simulation) : Simulation := { sim with session := sim.session.run }.settle

/-- Runs a line to its end. -/
def runLine (sim : Simulation) (source : String) : Simulation :=
  { sim with session := sim.session.runLine source }.settle

/-- Forgets all definitions and sends the turtle home. -/
def reset (sim : Simulation) : Simulation :=
  { session := (sim.session.compile "").2.draw (·.reset) }

end Simulation

end TurtleScript
