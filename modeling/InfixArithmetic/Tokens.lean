import InfixArithmetic.Binary64

/-!
The tokens of an expression are numbers and six symbols, each of which is written as one character.
-/
namespace InfixArithmetic.Tokens

open Binary64

inductive Operation where
  | add
  | subtract
  | multiply
  | divide
deriving DecidableEq

inductive Symbol where
  | operator (operation : Operation)
  | opening
  | closing
deriving DecidableEq

inductive Token where
  | number (value : Value)
  | symbol (symbol : Symbol)
deriving DecidableEq

def symbol? : Char → Option Symbol
  | '+' => some (.operator .add)
  | '-' => some (.operator .subtract)
  | '*' => some (.operator .multiply)
  | '/' => some (.operator .divide)
  | '(' => some .opening
  | ')' => some .closing
  | _ => none

end InfixArithmetic.Tokens
