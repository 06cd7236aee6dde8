import InfixArithmetic.BlankText
import InfixArithmetic.Evaluation
import InfixArithmetic.NumberText

/-!
A session is a conversation in lines. A line is an exit word, or blank, or an expression, whatever
blank characters surround it. A blank line is passed over in silence, an exit word is answered by
thanks and ends the session, and an expression is answered by one line with its value or the reason
why it has none.
-/
namespace InfixArithmetic.Sessions

open BlankText Evaluation NumberText

inductive Line where
  | exit
  | blank
  | expression (text : String)
deriving DecidableEq

def exitWords : List String := ["quit", "exit", "q"]

/-- Exit words are recognised in upper and lower case of ASCII letters. -/
def classify (line : String) : Line :=
  match trim line.toList with
  | [] => .blank
  | trimmed =>
    if String.ofList (trimmed.map Char.toLower) ∈ exitWords then .exit
    else .expression (String.ofList trimmed)

def title : String := "Terminal Math Calculator"

def thanks : String := "\nThank you for using " ++ title ++ "!\n"

/-- What a line is answered with, and whether it ends the session. -/
structure Reply where
  output : String
  ends : Bool
deriving DecidableEq

def answerLine (text : String) : String :=
  match evaluate text with
  | .ok value => "Result: " ++ formatValue value ++ "\n"
  | .error fault => "Error: " ++ fault.message ++ "\n"

def reply (line : String) : Reply :=
  match classify line with
  | .exit => ⟨thanks, true⟩
  | .blank => ⟨"", false⟩
  | .expression text => ⟨answerLine text, false⟩

/-- Each line with its end. -/
def lined (lines : List String) : String := String.join (lines.map (· ++ "\n"))

def bannerWidth : Nat := 50

/-- The text between equally many spaces on both sides, an odd one on the right. -/
def centred (text : String) : String :=
  let left := (bannerWidth - text.length) / 2
  let right := bannerWidth - text.length - left
  String.ofList (List.replicate left ' ') ++ text ++ String.ofList (List.replicate right ' ')

def rule : String := String.ofList (List.replicate bannerWidth '=')

/-- What greets the user of a prompted session. -/
def banner : String :=
  lined
    [rule, centred title, rule,
     "",
     "Welcome! Enter mathematical expressions to calculate.",
     "",
     "Supported operations:",
     "  + : Addition",
     "  - : Subtraction",
     "  * : Multiplication",
     "  / : Division",
     "  () : Parentheses for grouping",
     "",
     "Examples:",
     "  2 + 2",
     "  (5 + 3) * 2",
     "  10 / 2 - 1",
     "",
     "Type 'quit' or 'exit' to close the calculator.",
     rule]

/-- What precedes every line of a prompted session; a blank line sets it off. -/
def prompt : String := "\n>>> "

/-- What a prompted session ends with when its lines run out. -/
def farewell : String := "\nGoodbye!\n"

end InfixArithmetic.Sessions
