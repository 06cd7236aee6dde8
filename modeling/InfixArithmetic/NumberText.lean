import InfixArithmetic.Binary64
import InfixArithmetic.ShortestDecimals

/-!
Values are written with the fewest digits that read back, always positionally: no exponent, no
point in a whole number, no zeros at the end of a fraction, one zero before the point of a number
below one. A zero is written without its sign.
-/
namespace InfixArithmetic.NumberText

open Binary64 ShortestDecimals

def stepsPerOne : Nat := Nat.pow 10 1074

/-- The digits after the point of a proper fraction given in steps, without the zeros at their
end. -/
def fractionDigits (steps : Nat) : List Char :=
  (((Nat.toDigits 10 steps).leftpad 1074 '0').reverse.dropWhile (· == '0')).reverse

def positional (steps : Nat) : List Char :=
  let whole := Nat.toDigits 10 (steps / stepsPerOne)
  match fractionDigits (steps % stepsPerOne) with
  | [] => whole
  | fraction => whole ++ '.' :: fraction

def formatValue : Value → String
  | .nan => "NaN"
  | .number negative m =>
    if m.isZero then "0"
    else
      let size := if m.isInfinite then "inf" else String.ofList (positional (shortestSteps m))
      if negative then "-" ++ size else size

end InfixArithmetic.NumberText
