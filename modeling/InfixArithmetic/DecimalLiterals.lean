import InfixArithmetic.Binary64

/-!
Number literals are runs of digits and points. A literal is accepted if it has at most one point,
at least one digit, no leading zero that carries no information, and a size that rounds to a finite
value. Its value is then the one nearest to the decimal that it writes.
-/
namespace InfixArithmetic.DecimalLiterals

open BinaryGrid Binary64

def isLiteralChar (c : Char) : Bool := c.isDigit || c == '.'

/-- Without a point, a zero may start a literal only if the literal is all zeros. -/
def hasLeadingZero (literal : List Char) : Bool :=
  literal.head? == some '0' && !literal.contains '.' && literal.any (· != '0')

def isWellFormed (literal : List Char) : Bool :=
  literal.all isLiteralChar && literal.count '.' ≤ 1 && literal.any Char.isDigit &&
    !hasLeadingZero literal

/-- The number that the digits write when the point is ignored. -/
def coefficient (literal : List Char) : Nat :=
  Nat.ofDigitChars 10 (literal.filter Char.isDigit) 0

/-- How many characters follow the first point. -/
def places (literal : List Char) : Nat := (literal.dropWhile (· != '.')).length - 1

/-- The magnitude nearest to the decimal that a well-formed literal writes. -/
def magnitude (literal : List Char) : Magnitude :=
  nearest (coefficient literal * unitsPerOne) (Nat.pow 10 (places literal))

/-- The value of an accepted literal, which never has a sign. -/
def value? (literal : List Char) : Option Value :=
  if isWellFormed literal && !(magnitude literal).isInfinite then
    some (.number false (magnitude literal))
  else none

end InfixArithmetic.DecimalLiterals
