import TurtleScript.Shell

/-!
The program as it is called from a terminal: it reads files and input, and writes what the commands
say.
-/

namespace TurtleScript

open Shell

/-- Why reading failed, as far as the commands tell such reasons apart. -/
def readFault : IO.Error → ReadFault
  | .noFileOrDirectory _ _ _ => .missing
  | .inappropriateType _ code _ => if code = 21 then .directory else .notDirectory
  | .invalidArgument _ _ _ => .nameTooLong
  | .permissionDenied _ _ _ => .denied
  | _ => .encoding

def readSource (path : String) : IO (Except ReadFault String) := do
  try return .ok (← IO.FS.readFile path)
  catch e => return .error (readFault e)

def write (transcript : Transcript) : IO Unit := do
  IO.print transcript.out
  (← IO.getStdout).flush
  IO.eprint transcript.err

/-- Takes lines from the input until the conversation or the input ends. -/
partial def chat (sim : Simulation) : IO Unit := do
  let line ← (← IO.getStdin).getLine
  if line.isEmpty then return
  let next := Repl.step .plain sim line
  write next.transcript
  if next.stop then return
  chat next.sim

/-- Reads the files that a command line mentions. -/
def gather (words : List String) : IO (List (String × Except ReadFault String)) := do
  match Invocation.ofWords words with
  | .error _ => return []
  | .ok invocation => invocation.files.mapM fun path => do return (path, ← readSource path)

def execute (words : List String) : IO UInt32 := do
  let files ← gather words
  match plan .plain (fun path => (files.lookup path).getD (.error .missing)) words with
  | .result result =>
    write result.transcript
    return result.exit.val.toUInt32
  | .conversation config =>
    write Repl.greeting
    chat (.ofConfig config)
    return 0

end TurtleScript

def main (words : List String) : IO UInt32 := TurtleScript.execute words
