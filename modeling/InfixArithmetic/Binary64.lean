import InfixArithmetic.BinaryGrid

/-!
Signed binary64 values with their arithmetic. Every operation on finite operands is computed
exactly on whole numbers of units and then rounded once. The remaining rules are those of zeros,
infinities and the single value that is not a number.
-/
namespace InfixArithmetic.Binary64

open BinaryGrid

inductive Value where
  | nan
  | number (negative : Bool) (magnitude : Magnitude)
deriving DecidableEq

namespace Value

def zero : Value := .number false .zero

/-- Zero of either sign. -/
def isZero : Value → Bool
  | .nan => false
  | .number _ m => m.isZero

def isFinite : Value → Bool
  | .nan => false
  | .number _ m => !m.isInfinite

def neg : Value → Value
  | .nan => .nan
  | .number s m => .number (!s) m

/-- Values of one sign keep it. Finite values of opposite signs leave their difference with the
sign of the larger, and a positive zero if they cancel. Opposite infinities have no sum. -/
def add : Value → Value → Value
  | .number s a, .number t b =>
    if a.isInfinite then
      if b.isInfinite && s != t then .nan else .number s a
    else if b.isInfinite then .number t b
    else if s = t then .number s (nearest (a.units + b.units) 1)
    else if b.units < a.units then .number s (nearest (a.units - b.units) 1)
    else if a.units < b.units then .number t (nearest (b.units - a.units) 1)
    else zero
  | _, _ => .nan

def sub (x y : Value) : Value := x.add y.neg

/-- The sign is negative for opposite signs, zeros and infinities included; zero times infinity is
not a number. -/
def mul : Value → Value → Value
  | .number s a, .number t b =>
    if a.isInfinite || b.isInfinite then
      if a.isZero || b.isZero then .nan else .number (s != t) .infinite
    else .number (s != t) (nearest (a.units * b.units) unitsPerOne)
  | _, _ => .nan

/-- Signs as for products. Zero by zero and infinity by infinity are not numbers; any other value by
zero is infinite. -/
def div : Value → Value → Value
  | .number s a, .number t b =>
    if a.isInfinite then
      if b.isInfinite then .nan else .number (s != t) .infinite
    else if b.isInfinite then .number (s != t) .zero
    else if b.isZero then
      if a.isZero then .nan else .number (s != t) .infinite
    else .number (s != t) (nearest (a.units * unitsPerOne) b.units)
  | _, _ => .nan

/-- The weight of the highest of 64 bits, which is set for negative numbers. -/
def signBit : Nat := 0x8000000000000000

/-- The interchange pattern: the sign in the highest bit and the rank in the other 63. -/
def toBits : Value → UInt64
  | .nan => 0x7ff8000000000000
  | .number s m => .ofNat (if s then signBit + m.rank else m.rank)

/-- Every pattern above the infinite rank stands for the value that is not a number. -/
def ofBits (bits : UInt64) : Value :=
  if h : bits.toNat % signBit ≤ infiniteRank then
    .number (decide (signBit ≤ bits.toNat)) ⟨bits.toNat % signBit, h⟩
  else .nan

end Value

end InfixArithmetic.Binary64
