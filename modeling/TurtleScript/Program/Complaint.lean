/-!
What the parser can complain about, and the words it uses.
-/

namespace TurtleScript.Program

/-- Why a token cannot stand where it does. -/
inductive Complaint where
  | functionName
  | functionOpen
  | parameterName
  | parametersClose
  | bodyOpen
  | variableName
  | variableEnd
  | blockClose
  | forOpen
  | conditionEnd
  | forClose
  | ifOpen
  | ifClose
  | returnEnd
  | whileOpen
  | whileClose
  | expressionEnd
  | argumentsClose
  | indexClose
  | groupClose
  | arrayClose
  /-- An expression should start here. -/
  | expression
  /-- A number or string token that carries no value. -/
  | literal
  /-- Something other than a name in front of an equals sign. -/
  | target
  /-- Statements and expressions nest too deeply. -/
  | nesting
deriving Repr, DecidableEq

def Complaint.message : Complaint → String
  | .functionName => "Expected function name."
  | .functionOpen => "Expected '(' after function name."
  | .parameterName => "Expected parameter name."
  | .parametersClose => "Expected ')' after parameters."
  | .bodyOpen => "Expected '\x7b' before function body."
  | .variableName => "Expected variable name."
  | .variableEnd => "Expected ';' after variable declaration."
  | .blockClose => "Expected '\x7d' after block."
  | .forOpen => "Expected '(' after 'for'."
  | .conditionEnd => "Expected ';' after loop condition."
  | .forClose => "Expected ')' after for clauses."
  | .ifOpen => "Expected '(' after 'if'."
  | .ifClose => "Expected ')' after if condition."
  | .returnEnd => "Expected ';' after return value."
  | .whileOpen => "Expected '(' after 'while'."
  | .whileClose => "Expected ')' after condition."
  | .expressionEnd => "Expected ';' after expression."
  | .argumentsClose => "Expected ')' after arguments."
  | .indexClose => "Expected ']' after index."
  | .groupClose => "Expected ')' after expression."
  | .arrayClose => "Expected ']' after array elements."
  | .expression => "Expected an expression."
  | .literal => "Malformed literal."
  | .target => "Invalid assignment target."
  | .nesting => "Too much nesting."

end TurtleScript.Program
