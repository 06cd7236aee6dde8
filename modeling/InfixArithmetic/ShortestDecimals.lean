import InfixArithmetic.BinaryGrid

/-!
Every finite magnitude is a whole number of steps of 10^-1074, since a unit of 2^-1074 is 5^1074 of
them. A decimal is then a number of steps, and one with few significant digits is a multiple of a
high power of ten. The shortest decimal of a magnitude is looked for on coarse spacings first: the
two multiples next to the exact value are read back by rounding, and the first spacing on which one
of them returns the magnitude decides.
-/
namespace InfixArithmetic.ShortestDecimals

open BinaryGrid

def stepsPerUnit : Nat := Nat.pow 5 1074

/-- The exact value in steps of 10^-1074. -/
def exactSteps (m : Magnitude) : Nat := m.units * stepsPerUnit

/-- The magnitude nearest to a number of steps. -/
def ofSteps (steps : Nat) : Magnitude := nearest steps stepsPerUnit

/-- The multiple of the spacing that reads back as the magnitude, among the two that enclose its
exact value. If both do, the closer one is taken, and the upper one of two equally close. -/
def onSpacing? (m : Magnitude) (spacing : Nat) : Option Nat :=
  let below := exactSteps m / spacing * spacing
  let above := below + spacing
  if ofSteps below = m then
    if ofSteps above = m ∧ above - exactSteps m ≤ exactSteps m - below then some above
    else some below
  else if ofSteps above = m then some above
  else none

/-- The first hit on the spacings 10^level and below. The finest spacing is a single step, on which
the exact value itself reads back. -/
def shortestFrom (m : Magnitude) : Nat → Nat
  | 0 => exactSteps m
  | level + 1 => (onSpacing? m (Nat.pow 10 (level + 1))).getD (shortestFrom m level)

/-- The steps of the shortest decimal, searched from the spacing of the leading digit. -/
def shortestSteps (m : Magnitude) : Nat :=
  shortestFrom m ((Nat.toDigits 10 (exactSteps m)).length - 1)

end InfixArithmetic.ShortestDecimals
