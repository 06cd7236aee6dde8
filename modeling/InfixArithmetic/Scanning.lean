import InfixArithmetic.BlankText
import InfixArithmetic.DecimalLiterals
import InfixArithmetic.Faults
import InfixArithmetic.Tokens

/-!
A scanner takes a text one character at a time and holds the lexeme that it is in the middle of. A
number ends only when a character arrives that cannot belong to it, so every token is released one
character late and the last one when the text ends. After a fault the scanner holds nothing.
-/
namespace InfixArithmetic.Scanning

open BlankText DecimalLiterals Faults Tokens

inductive Scanner where
  | idle
  | inNumber (literal : String)
  | inSymbol (symbol : Symbol)
deriving DecidableEq

/-- The scanner after a call together with what the call answered. -/
structure Step where
  next : Scanner
  answer : Except LexicalFault (Option Token)

namespace Scanner

/-- The token of the held lexeme. -/
def held : Scanner → Except LexicalFault (Option Token)
  | .idle => .ok none
  | .inNumber literal =>
    match value? literal.toList with
    | some value => .ok (some (.number value))
    | none => .error (.invalidNumber literal)
  | .inSymbol symbol => .ok (some (.symbol symbol))

/-- The lexeme that a character begins. -/
def starting (c : Char) : Except LexicalFault Scanner :=
  if isLiteralChar c then .ok (.inNumber (String.singleton c))
  else
    match symbol? c with
    | some symbol => .ok (.inSymbol symbol)
    | none => if isBlank c then .ok .idle else .error (.unexpectedCharacter c)

/-- Releases the held token and begins a new lexeme. If the held lexeme is at fault the character
is dropped, and if the character is at fault the held token is. -/
def replace (scanner : Scanner) (c : Char) : Step :=
  match scanner.held with
  | .error fault => ⟨.idle, .error fault⟩
  | .ok token =>
    match starting c with
    | .error fault => ⟨.idle, .error fault⟩
    | .ok next => ⟨next, .ok token⟩

/-- Takes one character, which either extends the number in progress or ends the held lexeme. -/
def feed (scanner : Scanner) (c : Char) : Step :=
  match scanner with
  | .inNumber literal =>
    if isLiteralChar c then ⟨.inNumber (literal.push c), .ok none⟩ else scanner.replace c
  | _ => scanner.replace c

/-- Ends the text. -/
def finish (scanner : Scanner) : Step := ⟨.idle, scanner.held⟩

/-- Feeds characters up to the end of the text and collects the tokens, the latest first. -/
def collect (scanner : Scanner) (found : List Token) :
    List Char → Except LexicalFault (List Token)
  | [] =>
    match scanner.finish.answer with
    | .error fault => .error fault
    | .ok token => .ok (token.toList ++ found).reverse
  | c :: rest =>
    let step := scanner.feed c
    match step.answer with
    | .error fault => .error fault
    | .ok token => collect step.next (token.toList ++ found) rest

end Scanner

/-- The tokens of a text in order, or the first fault met on the way. -/
def tokenize (text : String) : Except LexicalFault (List Token) :=
  Scanner.idle.collect [] text.toList

end InfixArithmetic.Scanning
