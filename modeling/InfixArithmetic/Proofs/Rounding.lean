import InfixArithmetic.BinaryGrid
import Mathlib.Tactic.Linarith
import Mathlib.Tactic.Ring

/-!
Rounding keeps what is a magnitude already. A whole number of units with at most 53 significant bits
is the size of a magnitude, to which it is rounded, and every magnitude is what its own size is
rounded to. Rounding depends on the ratio alone, not on how it is written as a fraction, and a
larger ratio never has a smaller magnitude.
-/
namespace InfixArithmetic.Rounding

open BinaryGrid

theorem magnitude_eq {m n : Magnitude} (h : m.rank = n.rank) : m = n := by
  cases m
  cases n
  cases h
  rfl

theorem octave_eq : octave = 2 ^ 52 := rfl

theorem infiniteRank_eq : infiniteRank = 2047 * 2 ^ 52 := rfl

theorem unitsPerOne_eq : unitsPerOne = 2 ^ 1074 := Nat.one_shiftLeft 1074

theorem unitsPerOne_pos : 0 < unitsPerOne := by
  rw [unitsPerOne_eq]
  exact Nat.two_pow_pos 1074

theorem roundHalfEven_mul_right (num den : Nat) {k : Nat} (hk : 0 < k) :
    roundHalfEven (num * k) (den * k) = roundHalfEven num den := by
  have hlt : 2 * (num % den * k) < den * k ↔ 2 * (num % den) < den := by
    rw [← Nat.mul_assoc]
    exact Nat.mul_lt_mul_right hk
  have heq : 2 * (num % den * k) = den * k ↔ 2 * (num % den) = den := by
    rw [← Nat.mul_assoc]
    exact Nat.mul_left_inj (Nat.pos_iff_ne_zero.mp hk)
  simp only [roundHalfEven, Nat.mul_div_mul_right _ _ hk, Nat.mul_mod_mul_right, hlt, heq]

theorem roundHalfEven_mul_self (whole : Nat) {den : Nat} (hden : 0 < den) :
    roundHalfEven (whole * den) den = whole := by
  unfold roundHalfEven
  rw [Nat.mul_div_cancel _ hden, Nat.mul_mod_left, if_pos (Or.inl (by omega))]

theorem div_le_roundHalfEven (num den : Nat) : num / den ≤ roundHalfEven num den := by
  unfold roundHalfEven
  dsimp only
  split <;> omega

theorem roundHalfEven_le (num den : Nat) : roundHalfEven num den ≤ num / den + 1 := by
  unfold roundHalfEven
  dsimp only
  split <;> omega

theorem div_le_div_of_ratio_le {a b c d : Nat} (hb : 0 < b) (hd : 0 < d) (h : a * d ≤ c * b) :
    a / b ≤ c / d := by
  rw [Nat.le_div_iff_mul_le hd]
  have hfloor : a / b * b ≤ a := Nat.div_mul_le_self a b
  have hscaled : a / b * d * b ≤ c * b := by
    calc a / b * d * b = a / b * b * d := by ring
      _ ≤ a * d := Nat.mul_le_mul_right d hfloor
      _ ≤ c * b := h
  exact Nat.le_of_mul_le_mul_right hscaled hb

/-- A larger ratio is not rounded to a smaller whole number. If both lie above the same whole
number, the smaller one is rounded up only if it is at least halfway, and so is the larger. -/
theorem roundHalfEven_mono {a b c d : Nat} (hb : 0 < b) (hd : 0 < d) (h : a * d ≤ c * b) :
    roundHalfEven a b ≤ roundHalfEven c d := by
  have hfloor := div_le_div_of_ratio_le hb hd h
  have hupper := roundHalfEven_le a b
  have hlower := div_le_roundHalfEven c d
  rcases Nat.lt_or_eq_of_le hfloor with hlt | heq
  · omega
  · have ha := Nat.div_add_mod a b
    have hc := Nat.div_add_mod c d
    have hexcess : a % b * d ≤ c % d * b := by
      rw [← heq] at hc
      rw [← ha, ← hc] at h
      have hexpand : b * (a / b) * d + a % b * d ≤ b * (a / b) * d + c % d * b := by
        calc b * (a / b) * d + a % b * d = (b * (a / b) + a % b) * d := by ring
          _ ≤ (d * (a / b) + c % d) * b := h
          _ = b * (a / b) * d + c % d * b := by ring
      exact Nat.le_of_add_le_add_left hexpand
    unfold roundHalfEven
    dsimp only
    rw [← heq]
    split
    · split <;> omega
    · rename_i hup
      rw [if_neg]
      rintro (hless | ⟨htie, heven⟩)
      · have hhalf : b ≤ 2 * (a % b) := by omega
        have hleft : b * d ≤ 2 * (a % b) * d := Nat.mul_le_mul_right d hhalf
        have hright : 2 * (c % d) * b < d * b := Nat.mul_lt_mul_of_pos_right hless hb
        nlinarith
      · have hmore : b < 2 * (a % b) := by omega
        have hleft : b * d < 2 * (a % b) * d := Nat.mul_lt_mul_of_pos_right hmore hd
        have hright : 2 * (c % d) * b = d * b := by rw [htie]
        nlinarith

/-- How many bits of a whole number do not fit among 53. -/
def droppedBits (n : Nat) : Nat := n.log2 - 52

theorem lt_two_pow_droppedBits (n : Nat) : n < 2 ^ 53 * 2 ^ droppedBits n := by
  have hlog : n < 2 ^ (n.log2 + 1) := Nat.lt_log2_self
  have hexponent : n.log2 + 1 ≤ 53 + droppedBits n := by
    unfold droppedBits
    omega
  rw [← Nat.pow_add]
  exact Nat.lt_of_lt_of_le hlog (Nat.pow_le_pow_right (by decide) hexponent)

theorem two_pow_droppedBits_le {n : Nat} (h : droppedBits n ≠ 0) :
    2 ^ 52 * 2 ^ droppedBits n ≤ n := by
  unfold droppedBits at h ⊢
  have hne : n ≠ 0 := by
    rintro rfl
    rw [Nat.log2_zero] at h
    exact h rfl
  rw [← Nat.pow_add, show 52 + (n.log2 - 52) = n.log2 by omega]
  exact Nat.log2_self_le hne

theorem droppedBits_mono {a b : Nat} (h : a ≤ b) : droppedBits a ≤ droppedBits b := by
  by_contra hlt
  have hne : droppedBits a ≠ 0 := by omega
  have hlower := two_pow_droppedBits_le hne
  have hupper := lt_two_pow_droppedBits b
  have hpow : 2 ^ 53 * 2 ^ droppedBits b ≤ 2 ^ 52 * 2 ^ droppedBits a := by
    rw [← Nat.pow_add, ← Nat.pow_add]
    exact Nat.pow_le_pow_right (by decide) (by omega)
  omega

/-- A number of 53 bits, shifted, drops as many bits as it was shifted. -/
theorem droppedBits_mul_two_pow {q s : Nat} (hq : q < 2 ^ 53) (hs : s = 0 ∨ 2 ^ 52 ≤ q) :
    droppedBits (q * 2 ^ s) = s := by
  rcases hs with rfl | hlow
  · rw [Nat.pow_zero, Nat.mul_one]
    by_contra hne
    have hle := two_pow_droppedBits_le hne
    have hpow : 2 ^ 1 ≤ 2 ^ droppedBits q := Nat.pow_le_pow_right (by decide) (by omega)
    omega
  · have hne : q * 2 ^ s ≠ 0 := Nat.mul_ne_zero (by omega) (by simp)
    have hlog : (q * 2 ^ s).log2 = 52 + s := by
      rw [Nat.log2_eq_iff hne, show 52 + s + 1 = 53 + s by omega]
      rw [Nat.pow_add, Nat.pow_add]
      exact ⟨Nat.mul_le_mul_right _ hlow, Nat.mul_lt_mul_of_pos_right hq (by simp)⟩
    unfold droppedBits
    omega

theorem rank_nearest (num den : Nat) :
    (nearest num den).rank =
      min (droppedBits (num / den) * octave +
        roundHalfEven num (den * 2 ^ droppedBits (num / den))) infiniteRank := by
  simp only [nearest, droppedBits, Nat.shiftLeft_eq]

/-- Rounding depends on the ratio alone. -/
theorem nearest_mul_right (num den : Nat) {k : Nat} (hk : 0 < k) :
    nearest (num * k) (den * k) = nearest num den := by
  apply magnitude_eq
  rw [rank_nearest, rank_nearest, Nat.mul_div_mul_right _ _ hk, Nat.mul_right_comm,
    roundHalfEven_mul_right _ _ hk]

/-- A larger ratio does not have a smaller magnitude. Where it drops more bits, the smaller one
stays below the power of two that the larger one has reached. -/
theorem rank_nearest_mono {a b c d : Nat} (hb : 0 < b) (hd : 0 < d) (h : a * d ≤ c * b) :
    (nearest a b).rank ≤ (nearest c d).rank := by
  have hfloor := div_le_div_of_ratio_le hb hd h
  have hdropped := droppedBits_mono hfloor
  rw [rank_nearest, rank_nearest]
  generalize hs : droppedBits (a / b) = s at hdropped
  generalize ht : droppedBits (c / d) = t at hdropped
  apply min_le_min_right
  rcases Nat.lt_or_eq_of_le hdropped with hlt | rfl
  · have hupper : roundHalfEven a (b * 2 ^ s) ≤ 2 ^ 53 := by
      have hbits := lt_two_pow_droppedBits (a / b)
      rw [hs, ← Nat.div_lt_iff_lt_mul (by simp), Nat.div_div_eq_div_mul] at hbits
      have hround := roundHalfEven_le a (b * 2 ^ s)
      omega
    have hlower : 2 ^ 52 ≤ roundHalfEven c (d * 2 ^ t) := by
      have hbits := two_pow_droppedBits_le (n := c / d) (by omega)
      rw [ht, ← Nat.le_div_iff_mul_le (by simp), Nat.div_div_eq_div_mul] at hbits
      have hround := div_le_roundHalfEven c (d * 2 ^ t)
      omega
    have hmul : (s + 1) * octave ≤ t * octave := Nat.mul_le_mul_right octave hlt
    rw [octave_eq] at hmul ⊢
    omega
  · apply Nat.add_le_add_left
    apply roundHalfEven_mono (Nat.mul_pos hb (by simp)) (Nat.mul_pos hd (by simp))
    calc a * (d * 2 ^ s) = a * d * 2 ^ s := by ring
      _ ≤ c * b * 2 ^ s := Nat.mul_le_mul_right _ h
      _ = c * (b * 2 ^ s) := by ring

/-- The rank in two parts: how often the distance has doubled, and the 53 significant bits. -/
structure Parts (m : Magnitude) (doublings bits : Nat) : Prop where
  rank_eq : m.rank = doublings * octave + bits
  bits_lt : bits < 2 ^ 53
  normal : doublings = 0 ∨ 2 ^ 52 ≤ bits

theorem exists_parts (m : Magnitude) : ∃ doublings bits, Parts m doublings bits := by
  refine ⟨m.rank / octave - 1, m.rank - (m.rank / octave - 1) * octave, ?_, ?_, ?_⟩
  all_goals
    rw [octave_eq]
    omega

theorem Parts.units_eq {m : Magnitude} {s q : Nat} (h : Parts m s q) : m.units = q * 2 ^ s := by
  obtain ⟨hrank, hbits, hnormal⟩ := h
  rw [octave_eq] at hrank
  unfold Magnitude.units
  rw [octave_eq]
  split
  · obtain rfl : s = 0 := by omega
    simp only [Nat.zero_mul, Nat.zero_add] at hrank
    rw [hrank, Nat.pow_zero, Nat.mul_one]
  · have hquotient : m.rank / 2 ^ 52 - 1 = s := by omega
    have hremainder : 2 ^ 52 + m.rank % 2 ^ 52 = q := by omega
    rw [hquotient, hremainder, Nat.shiftLeft_eq]

theorem Parts.units_le {m : Magnitude} {s q t r : Nat} (h : Parts m s q) (hst : s ≤ t)
    (hqr : q ≤ r) : m.units ≤ r * 2 ^ t := by
  rw [h.units_eq]
  exact Nat.mul_le_mul hqr (Nat.pow_le_pow_right (by decide) hst)

theorem parts_infinite : Parts .infinite 2046 (2 ^ 52) := ⟨rfl, by decide, Or.inr (Nat.le_refl _)⟩

theorem units_infinite : Magnitude.infinite.units = 2 ^ 52 * 2 ^ 2046 := parts_infinite.units_eq

theorem Parts.nearest_eq {m : Magnitude} {s q : Nat} (h : Parts m s q) :
    nearest (q * 2 ^ s) 1 = m := by
  apply magnitude_eq
  rw [rank_nearest, Nat.div_one, droppedBits_mul_two_pow h.bits_lt h.normal, Nat.one_mul,
    roundHalfEven_mul_self _ (by simp), ← h.rank_eq]
  exact Nat.min_eq_left m.rank_le

/-- The size of a magnitude is rounded to that magnitude. -/
theorem nearest_units (m : Magnitude) : nearest m.units 1 = m := by
  obtain ⟨s, q, hparts⟩ := exists_parts m
  rw [hparts.units_eq, hparts.nearest_eq]

/-- Whatever has at most 53 significant bits and is finite is the size of a magnitude. -/
theorem units_nearest_mul_two_pow {q k : Nat} (hq : q < 2 ^ 53) (hk : q * 2 ^ k < 2 ^ 2098) :
    (nearest (q * 2 ^ k) 1).units = q * 2 ^ k := by
  by_cases hzero : q = 0
  · subst hzero
    rw [Nat.zero_mul]
    rfl
  · -- the bits are moved up until the highest is set or no doubling is left
    have hlog : q.log2 ≤ 52 := Nat.le_of_lt_succ ((Nat.log2_lt hzero).mpr hq)
    have hlower := Nat.log2_self_le hzero
    have hupper : q < 2 ^ (q.log2 + 1) := Nat.lt_log2_self
    generalize hmoved : min (52 - q.log2) k = t
    have hsplit : q * 2 ^ k = q * 2 ^ t * 2 ^ (k - t) := by
      rw [Nat.mul_assoc, ← Nat.pow_add, show t + (k - t) = k by omega]
    have hbits : q * 2 ^ t < 2 ^ 53 := by
      calc q * 2 ^ t < 2 ^ (q.log2 + 1) * 2 ^ t := Nat.mul_lt_mul_of_pos_right hupper (by simp)
        _ = 2 ^ (q.log2 + 1 + t) := (Nat.pow_add ..).symm
        _ ≤ 2 ^ 53 := Nat.pow_le_pow_right (by decide) (by omega)
    have hnormal : k - t = 0 ∨ 2 ^ 52 ≤ q * 2 ^ t := by
      by_cases hend : k - t = 0
      · exact Or.inl hend
      · refine Or.inr ?_
        calc 2 ^ 52 = 2 ^ q.log2 * 2 ^ t := by rw [← Nat.pow_add, show q.log2 + t = 52 by omega]
          _ ≤ q * 2 ^ t := Nat.mul_le_mul_right _ hlower
    rw [hsplit] at hk ⊢
    generalize q * 2 ^ t = bits at hbits hnormal hk
    generalize k - t = s at hnormal hk
    have hrank : s * octave + bits ≤ infiniteRank := by
      rw [octave_eq, infiniteRank_eq]
      rcases hnormal with rfl | hnormal
      · omega
      · have hpow : 2 ^ (52 + s) < 2 ^ 2098 := by
          rw [Nat.pow_add]
          exact Nat.lt_of_le_of_lt (Nat.mul_le_mul_right _ hnormal) hk
        have hs := (Nat.pow_lt_pow_iff_right (by decide)).mp hpow
        omega
    have hparts : Parts ⟨s * octave + bits, hrank⟩ s bits := ⟨rfl, hbits, hnormal⟩
    rw [hparts.nearest_eq, hparts.units_eq]

end InfixArithmetic.Rounding
