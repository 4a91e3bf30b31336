import TurtleScript.Span

/-!
What can go wrong while a program runs. A fault is the cause; a failure is a fault together with
the place it is reported at, which is the innermost one known.
-/

namespace TurtleScript

/-- Why a program cannot go on. -/
inductive Fault where
  | undefinedVariable (name : String)
  /-- A name defined twice in one scope. -/
  | redefinition (name : String)
  /-- A name of the library defined or assigned. -/
  | protectedName (name : String)
  | arityMismatch (function : String) (expected received : Nat)
  | notCallable (what : String)
  | notIndexable (type : String)
  /-- Arguments that a library function rejects. -/
  | invalidArgument (function message : String)
  /-- More nested calls than allowed. -/
  | stackOverflow (limit : Nat)
  | typeError (message : String)
  | indexOutOfRange (what : String) (index : Int) (length : Nat)
  /-- More rounds of a loop than allowed. -/
  | infiniteLoop (limit : Nat)
deriving Repr, DecidableEq, Inhabited

namespace Fault

def message : Fault → String
  | .undefinedVariable name => s!"Undefined variable '{name}'."
  | .redefinition name => s!"Variable '{name}' is already defined in this scope."
  | .protectedName name => s!"'{name}' is a library name and cannot be redefined or assigned."
  | .arityMismatch function expected received =>
    s!"Incorrect number of arguments for function '{function}' (expected {expected}, received {received})."
  | .notCallable what => s!"'{what}' is not a function."
  | .notIndexable type => s!"Only strings and arrays can be indexed, got {type}."
  | .invalidArgument function message => s!"{function}() {message}"
  | .stackOverflow limit => s!"Stack overflow: more than {limit} nested function calls."
  | .typeError message => message
  | .indexOutOfRange what index length => s!"{what} index {index} out of range for length {length}."
  | .infiniteLoop limit => s!"Loop exceeded the maximum of {limit} iterations."

/-- The heading under which a fault is reported. -/
def category : Fault → String
  | .typeError _ => "Type error"
  | .indexOutOfRange _ _ _ => "Range error"
  | .infiniteLoop _ => "Infinite loop error"
  | _ => "Runtime error"

end Fault

/-- A fault and the place it is reported at, once known. -/
structure Failure where
  fault : Fault
  span : Option Span := none
deriving Repr, DecidableEq, Inhabited

namespace Failure

/-- The failure at a place, unless a place is already known. -/
def locate (f : Failure) (span : Span) : Failure := { f with span := f.span.or (some span) }

def line? (f : Failure) : Option Nat := f.span.map Span.line

def text (f : Failure) : String :=
  match f.line? with
  | some line => s!"{f.fault.category} (line {line}): {f.fault.message}"
  | none => s!"{f.fault.category}: {f.fault.message}"

def title (f : Failure) : String :=
  match f.line? with
  | some line => s!"{f.fault.category} on line {line}"
  | none => f.fault.category

@[simp] theorem locate_span (f : Failure) (span : Span) :
    (f.locate span).span = some (f.span.getD span) := by
  unfold locate
  cases f.span <;> rfl

/-- The first place given is the one kept. -/
@[simp] theorem locate_locate (f : Failure) (a b : Span) : (f.locate a).locate b = f.locate a := by
  unfold locate
  cases f.span <;> rfl

end Failure

end TurtleScript
