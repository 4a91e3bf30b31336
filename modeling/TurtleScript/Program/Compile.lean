import TurtleScript.Token.Scan
import TurtleScript.Program.Grammar

/-!
From a source text to a program. Parsing goes ahead even when scanning found problems, so that one
attempt reports everything; the problems come in the order of the text.
-/

namespace TurtleScript.Program

/-- The program that a source text is, or everything that is wrong with it. -/
def compile (source : String) : Except (List Diagnostic) Program :=
  let scan := Token.scan source
  match ofTokens scan.tokens, scan.problems with
  | .ok program, [] => .ok program
  | .ok _, problems => .error problems
  | .error more, problems => .error ((problems ++ more).mergeSort Diagnostic.startsBefore)

end TurtleScript.Program
