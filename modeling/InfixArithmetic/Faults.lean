import InfixArithmetic.QuotedCharacters

/-!
Every reason for which a text has no value, with the wording in which it is reported. Reading
tokens has two reasons of its own; all of them become reasons of evaluation.
-/
namespace InfixArithmetic.Faults

open QuotedCharacters

/-- Reasons for which a text cannot be cut into tokens. -/
inductive LexicalFault where
  | unexpectedCharacter (character : Char)
  | invalidNumber (literal : String)
deriving DecidableEq

def LexicalFault.message : LexicalFault → String
  | .unexpectedCharacter c => "Unexpected character: " ++ quote c
  | .invalidNumber literal => "Invalid number: " ++ literal

/-- Reasons for which tokens are no expression. -/
inductive GrammarFault where
  | numberExpected
  | operationExpected
  | unbalancedParentheses
  | emptyParentheses
  | tooDeep
deriving DecidableEq

def GrammarFault.reason : GrammarFault → String
  | .numberExpected => "number expected"
  | .operationExpected => "operation expected"
  | .unbalancedParentheses => "unbalanced parentheses"
  | .emptyParentheses => "empty parentheses"
  | .tooDeep => "nested too deeply"

/-- Reasons for which a text has no value. -/
inductive EvaluationFault where
  | emptyExpression
  | foreignCharacter (character : Char)
  | invalidNumber (literal : String)
  | ungrammatical (fault : GrammarFault)
  | divisionByZero
  | outOfRange
deriving DecidableEq

def LexicalFault.toEvaluationFault : LexicalFault → EvaluationFault
  | .unexpectedCharacter c => .foreignCharacter c
  | .invalidNumber literal => .invalidNumber literal

def malformed (reason : String) : String := "Invalid mathematical expression: " ++ reason

def EvaluationFault.message : EvaluationFault → String
  | .emptyExpression => "Empty expression"
  | .foreignCharacter c =>
    "Invalid characters in expression. Only numbers and operators (+, -, *, /, parentheses) " ++
      "are allowed. Found " ++ quote c
  | .invalidNumber literal => malformed ("invalid number " ++ literal)
  | .ungrammatical fault => malformed fault.reason
  | .divisionByZero => "Division by zero is not allowed"
  | .outOfRange => malformed "result out of range"

end InfixArithmetic.Faults
