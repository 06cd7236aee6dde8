import InfixArithmetic.ControlSequences
import InfixArithmetic.Transcripts

/-!
The words of the command line. Options come first; the first word that is none begins an expression,
and every word after it belongs to that expression, whatever it looks like. Two hyphens end the
options and are dropped. The options and their faults take effect in the order in which they stand.
With no expression the lines of standard input are answered.
-/
namespace InfixArithmetic.CommandLine

open ControlSequences Evaluation NumberText Sessions Transcripts

inductive Switch where
  | noBanner
  | help
  | version
deriving DecidableEq

def Switch.name : Switch → String
  | .noBanner => "--no-banner"
  | .help => "--help"
  | .version => "--version"

def switch? (name : List Char) : Option Switch :=
  [Switch.noBanner, .help, .version].find? fun switch => switch.name.toList = '-' :: '-' :: name

/-- The switches that one letter stands for. -/
def letter? : Char → Option Switch
  | 'h' => some .help
  | 'V' => some .version
  | _ => none

inductive Word where
  | separator
  | switch (switch : Switch)
  | valued (switch : Switch) (value : String)
  | plain
deriving DecidableEq

/-- A word is an option if it is the name of a switch, which may be given a value, or a hyphen and
letters that all stand for switches. Of several letters the first counts, since it already ends the
program. -/
def classifyWord (word : String) : Word :=
  match word.toList with
  | ['-', '-'] => .separator
  | '-' :: '-' :: long =>
    match switch? (long.takeWhile (· != '=')) with
    | none => .plain
    | some switch =>
      match long.dropWhile (· != '=') with
      | [] => .switch switch
      | _ :: value => .valued switch (String.ofList value)
  | '-' :: letter :: letters =>
    match letter? letter with
    | none => .plain
    | some switch =>
      if letters.all (fun c => (letter? c).isSome) then .switch switch else .plain
  | _ => .plain

/-- What the command line asks for. -/
inductive Request where
  | help
  | version
  | repeatedSwitch (switch : Switch)
  | unexpectedValue (showsBanner : Bool) (switch : Switch) (value : String)
  | evaluate (expression : String)
  | session (showsBanner : Bool)
deriving DecidableEq

/-- The words of an expression are joined by single spaces. -/
def ofWords (showsBanner : Bool) : List String → Request
  | [] => .session showsBanner
  | words => .evaluate (String.intercalate " " words)

def requestFrom (showsBanner : Bool) : List String → Request
  | [] => .session showsBanner
  | word :: words =>
    match classifyWord word with
    | .separator => ofWords showsBanner words
    | .plain => ofWords showsBanner (word :: words)
    | .valued switch value => .unexpectedValue showsBanner switch value
    | .switch .help => .help
    | .switch .version => .version
    | .switch .noBanner =>
      if showsBanner then requestFrom false words else .repeatedSwitch .noBanner

def request (words : List String) : Request := requestFrom true words

def generalUsage : String := "termcalc [OPTIONS] [EXPRESSION]..."

/-- The usage that fits a switch. After the banner switch that switch and the expression stand as
the alternatives of a group, and the switch at hand is named only if it is not one of them. -/
def usageOf (showsBanner : Bool) (switch : Switch) : String :=
  if showsBanner then "termcalc " ++ switch.name ++ " [EXPRESSION]..."
  else
    match switch with
    | .noBanner => "termcalc <--no-banner|EXPRESSION>"
    | _ => "termcalc " ++ switch.name ++ " <--no-banner|EXPRESSION>"

def helpText : String :=
  lined
    ["Terminal calculator for +, -, *, / and parentheses",
     "",
     "Usage: " ++ generalUsage,
     "",
     "Arguments:",
     "  [EXPRESSION]...  Expression to evaluate once. Without one, " ++
       "expressions are read from stdin",
     "",
     "Options:",
     "      --no-banner  Don't print the welcome banner in interactive mode",
     "  -h, --help       Print help",
     "  -V, --version    Print version"]

def versionText : String := lined ["termcalc 0.1.0"]

/-- A command line that cannot be followed is reported with the usage that it falls under. -/
def usageError (complaint usage : String) : Outcome :=
  ⟨"", lined
    ["error: " ++ complaint, "", "Usage: " ++ usage, "", "For more information, try '--help'."], 2⟩

/-- The outcome of evaluating one expression. -/
def evaluateOnce (expression : String) : Outcome :=
  match evaluate expression with
  | .ok value => ⟨formatValue value ++ "\n", "", 0⟩
  | .error fault => ⟨"", "Error: " ++ fault.message ++ "\n", 1⟩

/-- The outcome of a request when standard input is no terminal. -/
def Request.outcome (request : Request) (input : List UInt8) : Outcome :=
  match request with
  | .help => ⟨helpText, "", 0⟩
  | .version => ⟨versionText, "", 0⟩
  | .repeatedSwitch switch =>
    usageError ("the argument '" ++ switch.name ++ "' cannot be used multiple times") generalUsage
  | .unexpectedValue showsBanner switch value =>
    usageError
      ("unexpected value '" ++ visible value ++ "' for '" ++ switch.name ++
        "' found; no more were expected")
      (usageOf showsBanner switch)
  | .evaluate expression => evaluateOnce expression
  | .session _ => (batch input).outcome

def run (words : List String) (input : List UInt8) : Outcome := (request words).outcome input

end InfixArithmetic.CommandLine
