import InfixArithmetic.UnprintedCharacters

/-!
A character is quoted for a message between single quotes. Six characters have a short escape; an
unprinted character is written by its code point in hexadecimal; any other stands for itself.
-/
namespace InfixArithmetic.QuotedCharacters

open UnprintedCharacters

/-- The letter after the backslash in a short escape. -/
def shortEscape? : Char → Option Char
  | '\x00' => some '0'
  | '\t' => some 't'
  | '\n' => some 'n'
  | '\r' => some 'r'
  | '\'' => some '\''
  | '\\' => some '\\'
  | _ => none

def escaped (c : Char) : List Char :=
  match shortEscape? c with
  | some letter => ['\\', letter]
  | none =>
    if isUnprinted c then ['\\', 'u', '\x7b'] ++ Nat.toDigits 16 c.toNat ++ ['\x7d']
    else [c]

def quote (c : Char) : String := String.ofList ('\'' :: escaped c ++ ['\''])

end InfixArithmetic.QuotedCharacters
