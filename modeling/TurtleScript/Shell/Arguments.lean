import TurtleScript.Config
import TurtleScript.Decimal.Reading
import TurtleScript.Word

/-!
The command line. It names a command and the file it works on, and may override settings by flags,
in front of the command or behind it; of two values for a flag the one behind the command counts.
Words are taken one after the other, and the first that does not fit decides.
-/

namespace TurtleScript.Shell

inductive Verb where
  | run | check | parse | tokens | repl
deriving Repr, DecidableEq

def verbs : List (String × Verb) :=
  [("run", .run), ("check", .check), ("parse", .parse), ("tokens", .tokens), ("repl", .repl)]

/-- Flags that take a value. -/
inductive Flag where
  | config | speed | maxLoops
deriving Repr, DecidableEq

def flags : List (String × Flag) :=
  [("config", .config), ("speed", .speed), ("max-loops", .maxLoops)]

/-- The values given to flags. -/
structure Settings where
  config : Option String := none
  speed : Option Float := none
  maxLoops : Option Nat := none
deriving Repr, Inhabited

/-- The values of two places on the command line, of which the second counts. -/
def Settings.overriddenBy (first second : Settings) : Settings :=
  { config := second.config.or first.config
    speed := second.speed.or first.speed
    maxLoops := second.maxLoops.or first.maxLoops }

/-- Why the words of a command line lead to no command. -/
inductive Refusal where
  /-- They do not fit together. -/
  | usage
  /-- Help is asked for. -/
  | help
  /-- The version is asked for. -/
  | version
deriving Repr, DecidableEq

/-- A count that fits in a machine word, with an optional plus sign. -/
def count? (text : String) : Option Nat :=
  let digits :=
    match text.toList with
    | '+' :: digits => digits
    | digits => digits
  if digits.isEmpty ∨ ¬ digits.all Char.isDigit then none
  else
    let n := Decimal.digitsValue digits
    if n < Word.count then some n else none

/-- The value of a flag, unless it has one already or cannot have this one. -/
def Settings.set (s : Settings) (flag : Flag) (value : String) : Except Refusal Settings :=
  match flag with
  | .config =>
    if s.config.isSome || value.isEmpty then .error .usage
    else .ok { s with config := some value }
  | .speed =>
    match s.speed, Decimal.read? value with
    | none, some x => .ok { s with speed := some x }
    | _, _ => .error .usage
  | .maxLoops =>
    match s.maxLoops, count? value with
    | none, some n => .ok { s with maxLoops := some n }
    | _, _ => .error .usage

/-- What the words so far say. -/
structure Words where
  /-- The flags in front of the command. -/
  before : Settings := {}
  verb : Option Verb := none
  /-- The flags behind the command. -/
  after : Settings := {}
  summary : Bool := false
  file : Option String := none
  /-- The flag whose value comes next. -/
  pending : Option Flag := none
  /-- Whether flags are no longer recognised. -/
  literal : Bool := false
  /-- The words behind a request for help. -/
  topics : Option (List String) := none
deriving Repr, Inhabited

namespace Words

/-- A value for a flag, on its side of the command. -/
def give (w : Words) (flag : Flag) (value : String) : Except Refusal Words := do
  match w.verb with
  | none => return { w with before := ← w.before.set flag value, pending := none }
  | some _ => return { w with after := ← w.after.set flag value, pending := none }

def looksLikeFlag (word : String) : Bool :=
  match word.toList with
  | '-' :: _ :: _ => true
  | _ => false

/-- A word with two dashes in front, without them and split at an equals sign. -/
def takeLong (w : Words) (name : String) (value : Option String) : Except Refusal Words :=
  match flags.lookup name, value with
  | some flag, some value => w.give flag value
  | some flag, none => .ok { w with pending := some flag }
  | none, some _ => .error .usage
  | none, none =>
    match name, w.verb with
    | "help", _ => .error .help
    | "version", none => .error .version
    | "summary", some .run => if w.summary then .error .usage else .ok { w with summary := true }
    | _, _ => .error .usage

/-- A word with one dash in front, without it. -/
def takeShort (w : Words) : List Char → Except Refusal Words
  | 'h' :: _ => .error .help
  | 'V' :: _ => if w.verb.isNone then .error .version else .error .usage
  | _ => .error .usage

/-- A word that is no flag: the command or its file. -/
def takePlain (w : Words) (word : String) : Except Refusal Words :=
  match w.verb with
  | none =>
    if w.literal then .error .usage
    else if word = "help" then .ok { w with topics := some [] }
    else
      match verbs.lookup word with
      | some verb => .ok { w with verb := some verb }
      | none => .error .usage
  | some .repl => .error .usage
  | some _ =>
    if w.file.isSome || word.isEmpty then .error .usage else .ok { w with file := some word }

/-- The next word. All words behind a request for help are topics, whatever they look like. -/
def take (w : Words) (word : String) : Except Refusal Words :=
  match w.topics, w.pending with
  | some topics, _ => .ok { w with topics := some (topics ++ [word]) }
  | none, some flag => if looksLikeFlag word then .error .usage else w.give flag word
  | none, none =>
    if w.literal then w.takePlain word
    else
      match word.toList with
      | ['-', '-'] => .ok { w with literal := true }
      | '-' :: '-' :: long =>
        let name := String.ofList (long.takeWhile (· ≠ '='))
        match long.dropWhile (· ≠ '=') with
        | _ :: value => w.takeLong name (some (String.ofList value))
        | [] => w.takeLong name none
      | '-' :: first :: rest => w.takeShort (first :: rest)
      | _ => w.takePlain word

end Words

/-- A command with all it needs. -/
inductive Command where
  | run (file : String) (summary : Bool)
  | check (file : String)
  | parse (file : String)
  | tokens (file : String)
  | repl
deriving Repr

def Command.file? : Command → Option String
  | .run file _ | .check file | .parse file | .tokens file => some file
  | .repl => none

structure Invocation where
  settings : Settings
  command : Command
deriving Repr

def Words.command (w : Words) : Except Refusal Command :=
  match w.verb, w.file with
  | some .run, some file => .ok (.run file w.summary)
  | some .check, some file => .ok (.check file)
  | some .parse, some file => .ok (.parse file)
  | some .tokens, some file => .ok (.tokens file)
  | some .repl, none => .ok .repl
  | _, _ => .error .usage

/-- Whether there is help on the topics: on everything, on a command, or on help itself. -/
def helpOn : List String → Bool
  | [] => true
  | [topic] => topic = "help" || (verbs.lookup topic).isSome
  | _ => false

def Invocation.ofWords (words : List String) : Except Refusal Invocation := do
  let w ← words.foldlM Words.take {}
  match w.topics, w.pending with
  | some topics, _ => .error (if helpOn topics then .help else .usage)
  | none, some _ => .error .usage
  | none, none => return { settings := w.before.overriddenBy w.after, command := ← w.command }

def Invocation.files (i : Invocation) : List String :=
  i.settings.config.toList ++ i.command.file?.toList

end TurtleScript.Shell
