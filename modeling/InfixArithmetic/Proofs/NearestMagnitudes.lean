import InfixArithmetic.Proofs.Rounding
import Mathlib.Algebra.Order.Field.Rat
import Mathlib.Tactic.FieldSimp
import Mathlib.Tactic.NormNum
import Mathlib.Tactic.Positivity

/-!
The magnitude nearest to a number. Every magnitude has a size on the line of rational numbers, and
sizes grow with the ranks. A number has exactly one nearest magnitude if a tie is decided for the
even rank, and rounding a ratio finds it. What lies between two numbers that have the same nearest
magnitude has it as well. The nearest magnitude is infinite from the midpoint above the largest
finite size on.
-/
namespace InfixArithmetic.NearestMagnitudes

open BinaryGrid Rounding

/-- The number that a magnitude stands for. Infinity stands where the next finite magnitude would,
at 2^1024, which is the point that rounding compares with. -/
def size (m : Magnitude) : ℚ := m.units / unitsPerOne

/-- No magnitude is closer to the number, and if another one is as close, the rank is even. -/
structure IsNearest (x : ℚ) (m : Magnitude) : Prop where
  closest : ∀ n, |x - size m| ≤ |x - size n|
  even : ∀ n, n ≠ m → |x - size n| = |x - size m| → m.rank % 2 = 0

/-- Of two points the smaller one is at least as close as the other up to the midpoint. -/
theorem abs_sub_le_abs_sub_iff {x a b : ℚ} (h : a < b) : |x - a| ≤ |x - b| ↔ 2 * x ≤ a + b := by
  rcases abs_cases (x - a) with ⟨ha, _⟩ | ⟨ha, _⟩ <;>
    rcases abs_cases (x - b) with ⟨hb, _⟩ | ⟨hb, _⟩ <;>
      rw [ha, hb] <;> constructor <;> intro hle <;> linarith

theorem abs_sub_le_abs_sub_iff' {x a b : ℚ} (h : a < b) : |x - b| ≤ |x - a| ↔ a + b ≤ 2 * x := by
  rcases abs_cases (x - a) with ⟨ha, _⟩ | ⟨ha, _⟩ <;>
    rcases abs_cases (x - b) with ⟨hb, _⟩ | ⟨hb, _⟩ <;>
      rw [ha, hb] <;> constructor <;> intro hle <;> linarith

theorem abs_sub_eq_abs_sub_iff {x a b : ℚ} (h : a < b) : |x - a| = |x - b| ↔ 2 * x = a + b := by
  rw [le_antisymm_iff, le_antisymm_iff, abs_sub_le_abs_sub_iff h, abs_sub_le_abs_sub_iff' h]

theorem units_lt_units {m n : Magnitude} (h : m.rank < n.rank) : m.units < n.units := by
  by_contra hle
  have hrank := rank_nearest_mono (a := n.units) (c := m.units) Nat.one_pos Nat.one_pos (by omega)
  rw [nearest_units, nearest_units] at hrank
  omega

theorem unitsPerOne_cast_pos : (0 : ℚ) < unitsPerOne := by
  exact_mod_cast unitsPerOne_pos

theorem size_lt_size {m n : Magnitude} (h : m.rank < n.rank) : size m < size n := by
  have hunits : (m.units : ℚ) < n.units := by exact_mod_cast units_lt_units h
  exact div_lt_div_of_pos_right hunits unitsPerOne_cast_pos

theorem size_le_size {m n : Magnitude} (h : m.rank ≤ n.rank) : size m ≤ size n := by
  rcases Nat.lt_or_eq_of_le h with hlt | heq
  · exact (size_lt_size hlt).le
  · rw [magnitude_eq heq]

variable {x y z : ℚ} {m n low high : Magnitude}

/-- A magnitude is nearest between its midpoints with all smaller and all larger ones, and a
midpoint belongs to it if its rank is even. -/
theorem isNearest_iff :
    IsNearest x m ↔
      (∀ n, m.rank < n.rank → 2 * x ≤ size m + size n ∧
        (2 * x = size m + size n → m.rank % 2 = 0)) ∧
      ∀ n, n.rank < m.rank → size n + size m ≤ 2 * x ∧
        (2 * x = size n + size m → m.rank % 2 = 0) := by
  constructor
  · intro h
    refine ⟨fun n hlt => ⟨?_, fun htie => ?_⟩, fun n hlt => ⟨?_, fun htie => ?_⟩⟩
    · exact (abs_sub_le_abs_sub_iff (size_lt_size hlt)).mp (h.closest n)
    · have hne : n ≠ m := fun heq => absurd (heq ▸ hlt) (Nat.lt_irrefl _)
      exact h.even n hne ((abs_sub_eq_abs_sub_iff (size_lt_size hlt)).mpr htie).symm
    · exact (abs_sub_le_abs_sub_iff' (size_lt_size hlt)).mp (h.closest n)
    · have hne : n ≠ m := fun heq => absurd (heq ▸ hlt) (Nat.lt_irrefl _)
      exact h.even n hne ((abs_sub_eq_abs_sub_iff (size_lt_size hlt)).mpr htie)
  · rintro ⟨habove, hbelow⟩
    constructor
    · intro n
      rcases Nat.lt_trichotomy m.rank n.rank with hlt | heq | hlt
      · exact (abs_sub_le_abs_sub_iff (size_lt_size hlt)).mpr (habove n hlt).1
      · rw [magnitude_eq heq]
      · exact (abs_sub_le_abs_sub_iff' (size_lt_size hlt)).mpr (hbelow n hlt).1
    · intro n hne htie
      rcases Nat.lt_trichotomy m.rank n.rank with hlt | heq | hlt
      · exact (habove n hlt).2 ((abs_sub_eq_abs_sub_iff (size_lt_size hlt)).mp htie.symm)
      · exact absurd (magnitude_eq heq.symm) hne
      · exact (hbelow n hlt).2 ((abs_sub_eq_abs_sub_iff (size_lt_size hlt)).mp htie)

/-- The magnitude that follows a finite one. -/
theorem exists_next (h : m.rank < infiniteRank) : ∃ n : Magnitude, n.rank = m.rank + 1 :=
  ⟨⟨m.rank + 1, h⟩, rfl⟩

/-- Between two magnitudes that were both nearest there would be no room for a third, and one of two
neighbours has an odd rank. -/
theorem IsNearest.not_lt (h : IsNearest x m) (h' : IsNearest x n) : ¬ m.rank < n.rank := by
  intro hlt
  rw [isNearest_iff] at h h'
  have hbelow := (h.1 n hlt).1
  have habove := (h'.2 m hlt).1
  have htie : 2 * x = size m + size n := le_antisymm hbelow habove
  have heven := (h.1 n hlt).2 htie
  have heven' := (h'.2 m hlt).2 htie
  obtain ⟨k, hk⟩ := exists_next (Nat.lt_of_lt_of_le hlt n.rank_le)
  have hbetween : k.rank < n.rank := by omega
  have hcloser := (h.1 k (by omega)).1
  have hsize := size_lt_size hbetween
  linarith

theorem IsNearest.unique (h : IsNearest x m) (h' : IsNearest x n) : m = n := by
  have hle := h.not_lt h'
  have hge := h'.not_lt h
  exact magnitude_eq (by omega)

/-- The numbers with one nearest magnitude are an interval. -/
theorem IsNearest.convex (hx : IsNearest x m) (hz : IsNearest z m) (hxy : x ≤ y) (hyz : y ≤ z) :
    IsNearest y m := by
  rw [isNearest_iff] at hx hz ⊢
  refine ⟨fun n hlt => ?_, fun n hlt => ?_⟩
  · obtain ⟨hle, htie⟩ := hz.1 n hlt
    exact ⟨by linarith, fun heq => htie (by linarith)⟩
  · obtain ⟨hle, htie⟩ := hx.2 n hlt
    exact ⟨by linarith, fun heq => htie (by linarith)⟩

/-- Of two neighbours the lower one is nearest to what lies between them up to their midpoint. -/
theorem isNearest_low (hnext : high.rank = low.rank + 1) (hle : size low ≤ x)
    (hmid : 2 * x ≤ size low + size high)
    (htie : 2 * x = size low + size high → low.rank % 2 = 0) : IsNearest x low := by
  rw [isNearest_iff]
  refine ⟨fun n hlt => ?_, fun n hlt => ?_⟩
  · have hsize := size_le_size (show high.rank ≤ n.rank by omega)
    exact ⟨by linarith, fun heq => htie (by linarith)⟩
  · have hsize := size_lt_size hlt
    exact ⟨by linarith, fun heq => by linarith⟩

theorem isNearest_high (hnext : high.rank = low.rank + 1) (hle : x ≤ size high)
    (hmid : size low + size high ≤ 2 * x)
    (htie : 2 * x = size low + size high → high.rank % 2 = 0) : IsNearest x high := by
  rw [isNearest_iff]
  refine ⟨fun n hlt => ?_, fun n hlt => ?_⟩
  · have hsize := size_lt_size hlt
    exact ⟨by linarith, fun heq => by linarith⟩
  · have hsize := size_le_size (show n.rank ≤ low.rank by omega)
    exact ⟨by linarith, fun heq => htie (by linarith)⟩

theorem isNearest_infinite (hle : size .infinite ≤ x) : IsNearest x .infinite := by
  rw [isNearest_iff]
  refine ⟨fun n hlt => absurd hlt (Nat.not_lt.mpr n.rank_le), fun n hlt => ?_⟩
  have hsize := size_lt_size hlt
  exact ⟨by linarith, fun heq => by linarith⟩

/-- A number of 53 bits and a power of two make up the size of the magnitude of their rank. The
number may also be 2^53, the power of two that a carry reaches. -/
theorem units_of_rank_eq {s q : Nat} (hrank : m.rank = s * octave + q) (hq : q ≤ 2 ^ 53)
    (hnormal : s = 0 ∨ 2 ^ 52 ≤ q) : m.units = q * 2 ^ s := by
  rcases Nat.lt_or_eq_of_le hq with hlt | rfl
  · exact Parts.units_eq ⟨hrank, hlt, hnormal⟩
  · have hcarry : m.rank = (s + 1) * octave + 2 ^ 52 := by
      rw [hrank, octave_eq]
      omega
    have hparts : Parts m (s + 1) (2 ^ 52) := ⟨hcarry, by decide, Or.inr (Nat.le_refl _)⟩
    rw [hparts.units_eq, Nat.pow_succ' (n := s)]
    omega

/-- Of the whole numbers around a ratio the lower one is taken up to the middle, and the middle
itself goes to the even one. -/
theorem roundHalfEven_cases (num : Nat) {den : Nat} (hden : 0 < den) :
    (roundHalfEven num den = num / den ∧ 2 * num ≤ (num / den + (num / den + 1)) * den ∧
      (2 * num = (num / den + (num / den + 1)) * den → num / den % 2 = 0)) ∨
    (roundHalfEven num den = num / den + 1 ∧ num < (num / den + 1) * den ∧
      (num / den + (num / den + 1)) * den ≤ 2 * num ∧
      (2 * num = (num / den + (num / den + 1)) * den → (num / den + 1) % 2 = 0)) := by
  have hsplit := Nat.div_add_mod num den
  have hrest := Nat.mod_lt num hden
  have hmiddle : (num / den + (num / den + 1)) * den = 2 * (den * (num / den)) + den := by ring
  have hupper : (num / den + 1) * den = den * (num / den) + den := by ring
  rw [hmiddle, hupper]
  unfold roundHalfEven
  dsimp only
  split
  · rename_i hdown
    exact Or.inl ⟨rfl, by omega, by omega⟩
  · rename_i hup
    exact Or.inr ⟨rfl, by omega, by omega, by omega⟩

/-- What is left of a ratio after dropping bits has at most 53 of them, and exactly so many if any
was dropped. -/
theorem quotient_bits (num den : Nat) :
    num / (den * 2 ^ droppedBits (num / den)) < 2 ^ 53 ∧
    (droppedBits (num / den) = 0 ∨ 2 ^ 52 ≤ num / (den * 2 ^ droppedBits (num / den))) := by
  rw [← Nat.div_div_eq_div_mul]
  constructor
  · exact (Nat.div_lt_iff_lt_mul (by simp)).mpr (lt_two_pow_droppedBits _)
  · by_cases hzero : droppedBits (num / den) = 0
    · exact Or.inl hzero
    · exact Or.inr ((Nat.le_div_iff_mul_le (by simp)).mpr (two_pow_droppedBits_le hzero))

theorem two_mul_ratio (num den : Nat) :
    2 * (num / (den * unitsPerOne) : ℚ) = (2 * num : Nat) / (den * unitsPerOne : ℚ) := by
  rw [Nat.cast_mul, Nat.cast_ofNat, mul_div_assoc]

section

variable {num den : Nat} (hden : 0 < den)

include hden

theorem ratio_unit_pos : (0 : ℚ) < den * unitsPerOne := by
  have hd : (0 : ℚ) < den := by exact_mod_cast hden
  exact mul_pos hd unitsPerOne_cast_pos

theorem size_eq_ratio (m : Magnitude) :
    size m = (m.units * den : Nat) / (den * unitsPerOne : ℚ) := by
  have hd : (den : ℚ) ≠ 0 := by exact_mod_cast hden.ne'
  rw [size, Nat.cast_mul, mul_comm (m.units : ℚ), mul_div_mul_left _ _ hd]

theorem size_le_ratio_iff : size m ≤ num / (den * unitsPerOne) ↔ m.units * den ≤ num := by
  rw [size_eq_ratio hden, div_le_div_iff_of_pos_right (ratio_unit_pos hden), Nat.cast_le]

theorem ratio_le_size_iff : num / (den * unitsPerOne) ≤ size m ↔ num ≤ m.units * den := by
  rw [size_eq_ratio hden, div_le_div_iff_of_pos_right (ratio_unit_pos hden), Nat.cast_le]

theorem size_add_size (m n : Magnitude) :
    size m + size n = ((m.units + n.units) * den : Nat) / (den * unitsPerOne : ℚ) := by
  rw [size_eq_ratio hden m, size_eq_ratio hden n, ← add_div, ← Nat.cast_add, Nat.add_mul]

theorem two_mul_ratio_le_iff :
    2 * (num / (den * unitsPerOne) : ℚ) ≤ size m + size n ↔
      2 * num ≤ (m.units + n.units) * den := by
  rw [two_mul_ratio, size_add_size hden, div_le_div_iff_of_pos_right (ratio_unit_pos hden),
    Nat.cast_le]

theorem le_two_mul_ratio_iff :
    size m + size n ≤ 2 * (num / (den * unitsPerOne) : ℚ) ↔
      (m.units + n.units) * den ≤ 2 * num := by
  rw [two_mul_ratio, size_add_size hden, div_le_div_iff_of_pos_right (ratio_unit_pos hden),
    Nat.cast_le]

theorem two_mul_ratio_eq_iff :
    2 * (num / (den * unitsPerOne) : ℚ) = size m + size n ↔
      2 * num = (m.units + n.units) * den := by
  rw [le_antisymm_iff, two_mul_ratio_le_iff hden, le_two_mul_ratio_iff hden, ← le_antisymm_iff]

/-- Past the last finite rank no magnitude is larger than what is left of the ratio. -/
theorem isNearest_infinite_of_floor {s q : Nat} (hq : q < 2 ^ 53) (hnormal : s = 0 ∨ 2 ^ 52 ≤ q)
    (hfloor : q * (den * 2 ^ s) ≤ num) (hbeyond : infiniteRank ≤ s * octave + q) :
    IsNearest (num / (den * unitsPerOne)) .infinite := by
  rw [octave_eq, infiniteRank_eq] at hbeyond
  have hdoublings : 2046 ≤ s := by omega
  have hfull : 2 ^ 52 ≤ q := by omega
  apply isNearest_infinite
  rw [size_le_ratio_iff hden]
  calc Magnitude.infinite.units * den ≤ q * 2 ^ s * den :=
        Nat.mul_le_mul_right den (parts_infinite.units_le hdoublings hfull)
    _ = q * (den * 2 ^ s) := by ring
    _ ≤ num := hfloor

/-- Of the magnitudes around what is left of the ratio, the one that rounding takes is nearest. Its
rank is even exactly if the number of bits that rounding ends with is. -/
theorem isNearest_of_roundHalfEven {s : Nat} (hbits : num / (den * 2 ^ s) < 2 ^ 53)
    (hnormal : s = 0 ∨ 2 ^ 52 ≤ num / (den * 2 ^ s))
    (hlow : low.rank = s * octave + num / (den * 2 ^ s)) (hnext : high.rank = low.rank + 1)
    (hm : m.rank = s * octave + roundHalfEven num (den * 2 ^ s)) :
    IsNearest (num / (den * unitsPerOne)) m := by
  have hfloor := Nat.div_mul_le_self num (den * 2 ^ s)
  have hcases := roundHalfEven_cases num (Nat.mul_pos hden (Nat.two_pow_pos s))
  generalize num / (den * 2 ^ s) = q at hbits hnormal hlow hfloor hcases
  have hhigh : high.rank = s * octave + (q + 1) := by omega
  have hlowUnits := units_of_rank_eq hlow (Nat.le_of_lt hbits) hnormal
  have hhighUnits := units_of_rank_eq hhigh hbits (by omega)
  have hmiddle : (low.units + high.units) * den = (q + (q + 1)) * (den * 2 ^ s) := by
    rw [hlowUnits, hhighUnits]
    ring
  rcases hcases with ⟨hq, hmid, htie⟩ | ⟨hq, hupper, hmid, htie⟩
  · obtain rfl : m = low := magnitude_eq (by rw [hm, hlow, hq])
    apply isNearest_low hnext
    · rw [size_le_ratio_iff hden, hlowUnits]
      calc q * 2 ^ s * den = q * (den * 2 ^ s) := by ring
        _ ≤ num := hfloor
    · rwa [two_mul_ratio_le_iff hden, hmiddle]
    · rw [two_mul_ratio_eq_iff hden, hmiddle, hlow, octave_eq]
      intro heven
      have hparity := htie heven
      omega
  · obtain rfl : m = high := magnitude_eq (by rw [hm, hhigh, hq])
    apply isNearest_high hnext
    · rw [ratio_le_size_iff hden, hhighUnits]
      calc num ≤ (q + 1) * (den * 2 ^ s) := Nat.le_of_lt hupper
        _ = (q + 1) * 2 ^ s * den := by ring
    · rwa [le_two_mul_ratio_iff hden, hmiddle]
    · rw [two_mul_ratio_eq_iff hden, hmiddle, hhigh, octave_eq]
      intro heven
      have hparity := htie heven
      omega

/-- Rounding a ratio of units finds the magnitude that is nearest to it. -/
theorem isNearest_nearest : IsNearest (num / (den * unitsPerOne)) (nearest num den) := by
  have hrank := rank_nearest num den
  obtain ⟨hbits, hnormal⟩ := quotient_bits num den
  generalize droppedBits (num / den) = s at hrank hbits hnormal
  have hfloor := Nat.div_mul_le_self num (den * 2 ^ s)
  have hround := div_le_roundHalfEven num (den * 2 ^ s)
  by_cases hbeyond : infiniteRank ≤ s * octave + num / (den * 2 ^ s)
  · have hinfinite : nearest num den = .infinite := by
      apply magnitude_eq
      rw [hrank]
      exact Nat.min_eq_right (by omega)
    rw [hinfinite]
    exact isNearest_infinite_of_floor hden hbits hnormal hfloor hbeyond
  · obtain ⟨low, hlow⟩ : ∃ low : Magnitude, low.rank = s * octave + num / (den * 2 ^ s) :=
      ⟨⟨s * octave + num / (den * 2 ^ s), by omega⟩, rfl⟩
    obtain ⟨high, hnext⟩ := exists_next (m := low) (by omega)
    have hupper := roundHalfEven_le num (den * 2 ^ s)
    have hm : (nearest num den).rank = s * octave + roundHalfEven num (den * 2 ^ s) := by
      have hle := high.rank_le
      rw [hrank]
      exact Nat.min_eq_left (by omega)
    exact isNearest_of_roundHalfEven hden hbits hnormal hlow hnext hm

end

theorem units_eq_of_parts {k t q : Nat} (h : Parts m (k + t) q) :
    m.units = q * 2 ^ k * 2 ^ t := by
  rw [h.units_eq, Nat.pow_add, Nat.mul_assoc]

theorem size_of_parts {k q : Nat} (h : Parts m (k + 1074) q) : size m = q * 2 ^ k := by
  have hunits : m.units = q * 2 ^ k * unitsPerOne := by
    rw [unitsPerOne_eq]
    exact units_eq_of_parts h
  rw [size, hunits, Nat.cast_mul, mul_div_cancel_right₀ _ unitsPerOne_cast_pos.ne', Nat.cast_mul,
    Nat.cast_pow, Nat.cast_ofNat]

def largestFinite : Magnitude := ⟨infiniteRank - 1, Nat.sub_le ..⟩

theorem parts_largestFinite : Parts largestFinite 2045 (2 ^ 53 - 1) :=
  ⟨rfl, by decide, Or.inr (by decide)⟩

/-- From here on, 2^1024 - 2^970, a number is too large to be rounded to a finite magnitude. -/
def overflowBound : ℚ := 2 ^ 1024 - 2 ^ 970

theorem size_largestFinite_add_size_infinite :
    size largestFinite + size .infinite = 2 * overflowBound := by
  rw [size_of_parts (k := 971) parts_largestFinite, size_of_parts (k := 972) parts_infinite,
    overflowBound]
  have hlargest : (2 : ℚ) ^ 971 = 2 ^ 970 * 2 ^ 1 := pow_add 2 970 1
  have hinfinite : (2 : ℚ) ^ 972 = 2 ^ 970 * 2 ^ 2 := pow_add 2 970 2
  have hbound : (2 : ℚ) ^ 1024 = 2 ^ 970 * 2 ^ 54 := pow_add 2 970 54
  rw [hlargest, hinfinite, hbound]
  generalize (2 : ℚ) ^ 970 = scale
  push_cast
  ring

/-- The nearest magnitude is infinite from the midpoint between the largest finite one and infinity
on, since infinity has an even rank. -/
theorem IsNearest.isInfinite_iff (h : IsNearest x m) :
    m.isInfinite = true ↔ overflowBound ≤ x := by
  have hnext : Magnitude.infinite.rank = largestFinite.rank + 1 := rfl
  have hmid := size_largestFinite_add_size_infinite
  constructor
  · intro hinfinite
    have hrank : m.rank = infiniteRank := by simpa [Magnitude.isInfinite] using hinfinite
    obtain rfl : m = .infinite := magnitude_eq hrank
    have hbelow := ((isNearest_iff.mp h).2 largestFinite (by omega)).1
    linarith
  · intro hbound
    have hnearest : IsNearest x .infinite := by
      rcases le_total x (size .infinite) with hle | hle
      · exact isNearest_high hnext hle (by linarith) (fun _ => rfl)
      · exact isNearest_infinite hle
    rw [h.unique hnearest]
    rfl

end InfixArithmetic.NearestMagnitudes
