/-!
The magnitudes of binary64 arithmetic are finitely many points of one grid. Counted from zero
upward they have ranks, the last of which is infinity, and each finite one is a whole number of
units of 2^-1074. Up to rank 2^53 the rank is that number; from there on the distance between
neighbours doubles after every 2^52 ranks. Rounding sends an exact ratio to the nearest magnitude
and a ratio halfway between two of them to the one of even rank.
-/
namespace InfixArithmetic.BinaryGrid

/-- After so many ranks, 2^52, the distance between neighbours doubles. -/
def octave : Nat := 0x10000000000000

/-- The rank after the largest finite magnitude. -/
def infiniteRank : Nat := 2047 * octave

/-- One is 2^1074 units. -/
def unitsPerOne : Nat := 1 <<< 1074

structure Magnitude where
  rank : Nat
  rank_le : rank ≤ infiniteRank
deriving DecidableEq

namespace Magnitude

def zero : Magnitude := ⟨0, Nat.zero_le _⟩

def infinite : Magnitude := ⟨infiniteRank, Nat.le_refl _⟩

def isZero (m : Magnitude) : Bool := m.rank == 0

def isInfinite (m : Magnitude) : Bool := m.rank == infiniteRank

/-- The size in units of 2^-1074. Infinity stands where the next finite magnitude would, at
2^1024, which is the point that rounding compares with. -/
def units (m : Magnitude) : Nat :=
  if m.rank < octave then m.rank
  else (octave + m.rank % octave) <<< (m.rank / octave - 1)

end Magnitude

/-- The whole number nearest to a ratio; halfway between two, the even one. -/
def roundHalfEven (num den : Nat) : Nat :=
  let whole := num / den
  let excess := 2 * (num % den)
  if excess < den ∨ (excess = den ∧ whole % 2 = 0) then whole else whole + 1

/-- The magnitude nearest to a ratio of units. The ratio is rounded to 53 significant bits, or to a
whole number where that is coarser, and beyond the finite magnitudes it is infinite. A carry out of
those bits reaches a power of two, whose rank is the next one, so no case is needed for it. -/
def nearest (num den : Nat) : Magnitude :=
  let shift := (num / den).log2 - 52
  ⟨min (shift * octave + roundHalfEven num (den <<< shift)) infiniteRank, Nat.min_le_right ..⟩

end InfixArithmetic.BinaryGrid
