import InfixArithmetic.Grammar
import InfixArithmetic.Scanning

/-!
A text is evaluated in three passes, each of which may refuse it. Screening looks at its characters
alone and finds an empty text or the first character that no expression can hold. Scanning cuts it
into tokens. Reading computes its value; a division by zero is reported only for a complete
expression, and before a value that is not finite.
-/
namespace InfixArithmetic.Evaluation

open Binary64 BlankText Faults Grammar Scanning Tokens

/-- The characters that an expression is written with, apart from blank ones. -/
def alphabet : List Char := "0123456789.+-*/()".toList

def isAllowed (c : Char) : Bool := alphabet.contains c || isBlank c

/-- The text between the blank characters at its ends, if it is not empty and has no foreign
character. -/
def screen (text : String) : Except EvaluationFault String :=
  match trim text.toList with
  | [] => .error .emptyExpression
  | trimmed =>
    match trimmed.find? (fun c => !isAllowed c) with
    | some c => .error (.foreignCharacter c)
    | none => .ok (String.ofList trimmed)

/-- The value of the expression that the tokens are. -/
def evaluateTokens (tokens : List Token) : Except EvaluationFault Value :=
  match readAll tokens with
  | .error fault => .error (.ungrammatical fault)
  | .ok reading =>
    if reading.dividesByZero then .error .divisionByZero
    else if reading.value.isFinite then .ok reading.value
    else .error .outOfRange

/-- The value of a text as it stands, which need not have been screened. -/
def compute (text : String) : Except EvaluationFault Value :=
  match tokenize text with
  | .error fault => .error fault.toEvaluationFault
  | .ok tokens => evaluateTokens tokens

def evaluate (text : String) : Except EvaluationFault Value :=
  match screen text with
  | .error fault => .error fault
  | .ok expression => compute expression

end InfixArithmetic.Evaluation
