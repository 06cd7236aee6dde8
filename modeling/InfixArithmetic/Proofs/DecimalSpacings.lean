import InfixArithmetic.Proofs.DecimalTexts
import InfixArithmetic.Proofs.NearestMagnitudes
import Mathlib.Algebra.Order.Field.Power

/-!
The search for a shortest decimal on coarse spacings. The two multiples of a power of ten that
enclose an exact value leave no room between them for a decimal of so few digits, and what rounds to
a magnitude is an interval around its exact value. So one of the two multiples rounds to the
magnitude if any decimal of so few digits does, and the closer of those that do is as close as any.
The first spacing with a hit therefore gives a decimal of fewest digits, and the closest of them.
-/
namespace InfixArithmetic.DecimalSpacings

open BinaryGrid DecimalTexts NearestMagnitudes NumberText Rounding ShortestDecimals

/-- The multiple of the spacing at the exact value or next below it. -/
def below (m : Magnitude) (spacing : Nat) : Nat := exactSteps m / spacing * spacing

def above (m : Magnitude) (spacing : Nat) : Nat := below m spacing + spacing

variable {m : Magnitude} {spacing steps digits level : Nat} {x : ℚ}

theorem below_le_exactSteps (m : Magnitude) (spacing : Nat) : below m spacing ≤ exactSteps m :=
  Nat.div_mul_le_self ..

/-- The search takes a multiple that reads back. If both do, the exact value is on its side of their
middle. -/
theorem onSpacing?_cases (m : Magnitude) (spacing : Nat) :
    (onSpacing? m spacing = some (below m spacing) ∧ ofSteps (below m spacing) = m ∧
      (ofSteps (above m spacing) = m →
        2 * exactSteps m ≤ below m spacing + above m spacing)) ∨
    (onSpacing? m spacing = some (above m spacing) ∧ ofSteps (above m spacing) = m ∧
      (ofSteps (below m spacing) = m →
        below m spacing + above m spacing ≤ 2 * exactSteps m)) ∨
    (onSpacing? m spacing = none ∧ ofSteps (below m spacing) ≠ m ∧
      ofSteps (above m spacing) ≠ m) := by
  have heq : onSpacing? m spacing =
      if ofSteps (below m spacing) = m then
        if ofSteps (above m spacing) = m ∧
            above m spacing - exactSteps m ≤ exactSteps m - below m spacing then
          some (above m spacing)
        else some (below m spacing)
      else if ofSteps (above m spacing) = m then some (above m spacing)
      else none := rfl
  have hlower := below_le_exactSteps m spacing
  rw [heq]
  by_cases hbelow : ofSteps (below m spacing) = m
  · rw [if_pos hbelow]
    by_cases habove : ofSteps (above m spacing) = m ∧
        above m spacing - exactSteps m ≤ exactSteps m - below m spacing
    · rw [if_pos habove]
      obtain ⟨hreads, hcloser⟩ := habove
      exact Or.inr (Or.inl ⟨rfl, hreads, fun _ => by omega⟩)
    · rw [if_neg habove]
      refine Or.inl ⟨rfl, hbelow, fun hreads => ?_⟩
      have hfarther : ¬ above m spacing - exactSteps m ≤ exactSteps m - below m spacing :=
        fun hle => habove ⟨hreads, hle⟩
      omega
  · rw [if_neg hbelow]
    by_cases habove : ofSteps (above m spacing) = m
    · rw [if_pos habove]
      exact Or.inr (Or.inl ⟨rfl, habove, fun h => absurd h hbelow⟩)
    · rw [if_neg habove]
      exact Or.inr (Or.inr ⟨rfl, hbelow, habove⟩)

/-- A hit on a spacing is one of its two multiples around the exact value and reads back. -/
theorem hit_of_onSpacing? (h : onSpacing? m spacing = some steps) :
    ofSteps steps = m ∧ (steps = below m spacing ∨ steps = above m spacing) := by
  rcases onSpacing?_cases m spacing with ⟨heq, hreads, -⟩ | ⟨heq, hreads, -⟩ | ⟨heq, -⟩
  · cases heq.symm.trans h
    exact ⟨hreads, Or.inl rfl⟩
  · cases heq.symm.trans h
    exact ⟨hreads, Or.inr rfl⟩
  · cases heq.symm.trans h

theorem dvd_of_onSpacing? (h : onSpacing? m spacing = some steps) : spacing ∣ steps := by
  have hbelow : spacing ∣ below m spacing := Nat.dvd_mul_left ..
  rcases (hit_of_onSpacing? h).2 with rfl | rfl
  · exact hbelow
  · exact Nat.dvd_add hbelow (Nat.dvd_refl spacing)

theorem ofSteps_exactSteps (m : Magnitude) : ofSteps (exactSteps m) = m := by
  have hscaled := nearest_mul_right m.units 1 stepsPerUnit_pos
  rw [Nat.one_mul] at hscaled
  rw [ofSteps, exactSteps, hscaled, nearest_units]

/-- On a spacing that divides it the exact value is taken, since it lies there and reads back. -/
theorem onSpacing?_of_dvd (hspacing : 0 < spacing) (hdvd : spacing ∣ exactSteps m) :
    onSpacing? m spacing = some (exactSteps m) := by
  have hbelow : below m spacing = exactSteps m := Nat.div_mul_cancel hdvd
  have habove : above m spacing = exactSteps m + spacing := by rw [above, hbelow]
  have hreads : ofSteps (below m spacing) = m := by rw [hbelow, ofSteps_exactSteps]
  rcases onSpacing?_cases m spacing with ⟨heq, -⟩ | ⟨-, -, hcloser⟩ | ⟨-, hnot, -⟩
  · rw [heq, hbelow]
  · have hle := hcloser hreads
    omega
  · exact absurd hreads hnot

/-- The search ends with the hit on the coarsest spacing that has one. -/
theorem first_hit (m : Magnitude) (level : Nat) :
    ∃ found ≤ level, onSpacing? m (10 ^ found) = some (shortestFrom m level) ∧
      ∀ coarser, found < coarser → coarser ≤ level → onSpacing? m (10 ^ coarser) = none := by
  induction level with
  | zero =>
    refine ⟨0, Nat.le_refl 0, ?_, fun coarser hlt hle => by omega⟩
    exact onSpacing?_of_dvd Nat.one_pos (Nat.one_dvd _)
  | succ level ih =>
    rw [shortestFrom]
    cases hspacing : onSpacing? m (Nat.pow 10 (level + 1)) with
    | some steps =>
      exact ⟨level + 1, Nat.le_refl _, hspacing, fun coarser hlt hle => by omega⟩
    | none =>
      obtain ⟨found, hfound, hhit, hmiss⟩ := ih
      refine ⟨found, Nat.le_succ_of_le hfound, hhit, fun coarser hlt hle => ?_⟩
      rcases Nat.lt_or_eq_of_le hle with hlower | rfl
      · exact hmiss coarser hlt (Nat.le_of_lt_succ hlower)
      · exact hspacing

theorem ofSteps_shortestSteps (m : Magnitude) : ofSteps (shortestSteps m) = m := by
  obtain ⟨found, -, hhit, -⟩ := first_hit m ((Nat.toDigits 10 (exactSteps m)).length - 1)
  exact (hit_of_onSpacing? hhit).1

/-- A number that so many significant digits write, wherever the point is. -/
def IsDecimal (digits : Nat) (x : ℚ) : Prop :=
  ∃ (c : Nat) (e : Int), c < 10 ^ digits ∧ x = c * 10 ^ e

theorem IsDecimal.mul_zpow (h : IsDecimal digits x) (i : Int) :
    IsDecimal digits (x * 10 ^ i) := by
  obtain ⟨c, e, hc, rfl⟩ := h
  refine ⟨c, e + i, hc, ?_⟩
  rw [zpow_add₀ (by decide), mul_assoc]

/-- The power of ten after the last number of so many digits has one digit itself. -/
theorem isDecimal_of_le {c : Nat} (hc : c ≤ 10 ^ (digits + 1)) (e : Int) :
    IsDecimal (digits + 1) (c * 10 ^ e) := by
  rcases Nat.lt_or_eq_of_le hc with hlt | rfl
  · exact ⟨c, e, hlt, rfl⟩
  · refine ⟨1, digits + 1 + e, Nat.one_lt_pow (Nat.succ_ne_zero digits) (by decide), ?_⟩
    rw [zpow_add₀ (by decide), Nat.cast_one, one_mul]
    norm_cast

theorem eq_zero_of_isDecimal_zero (h : IsDecimal 0 x) : x = 0 := by
  obtain ⟨c, e, hc, rfl⟩ := h
  obtain rfl : c = 0 := by omega
  rw [Nat.cast_zero, zero_mul]

/-- Not strictly between the two multiples, in steps that need not be whole. -/
def IsBeside (m : Magnitude) (spacing : Nat) (x : ℚ) : Prop :=
  x ≤ below m spacing ∨ above m spacing ≤ x

/-- A decimal of few digits that is not a multiple of the spacing is below the leading power of ten
of the exact value, and that power is a multiple. -/
theorem isBeside_of_isDecimal (hexact : 10 ^ (level + digits) ≤ exactSteps m)
    (h : IsDecimal (digits + 1) x) : IsBeside m (10 ^ level) x := by
  have hspacing : 0 < 10 ^ level := Nat.pow_pos (by decide)
  obtain ⟨c, e, hc, rfl⟩ := h
  by_cases hcoarse : (level : Int) ≤ e
  · obtain ⟨i, rfl⟩ := Int.le.dest hcoarse
    have hmultiple : (c * 10 ^ (level + i : Int) : ℚ) = (c * 10 ^ i * 10 ^ level : Nat) := by
      rw [zpow_add₀ (by decide), zpow_natCast, zpow_natCast]
      push_cast
      ring
    rw [IsBeside, hmultiple, Nat.cast_le, Nat.cast_le, above, below, ← Nat.succ_mul]
    rcases Nat.lt_or_ge (exactSteps m / 10 ^ level) (c * 10 ^ i) with hlt | hge
    · exact Or.inr (Nat.mul_le_mul_right _ hlt)
    · exact Or.inl (Nat.mul_le_mul_right _ hge)
  · have hleading : 10 ^ digits * 10 ^ level ≤ below m (10 ^ level) := by
      apply Nat.mul_le_mul_right
      rw [Nat.le_div_iff_mul_le hspacing, ← Nat.pow_add, Nat.add_comm]
      exact hexact
    left
    calc (c * 10 ^ e : ℚ) ≤ 10 ^ (digits + 1) * 10 ^ (level - 1 : Int) := by
          gcongr
          · exact_mod_cast hc.le
          · decide
          · omega
      _ = (10 ^ digits * 10 ^ level : Nat) := by
          rw [zpow_sub₀ (by decide), zpow_natCast, pow_succ]
          push_cast
          ring
      _ ≤ below m (10 ^ level) := by exact_mod_cast hleading

theorem stepsPerOne_cast_pos : (0 : ℚ) < stepsPerOne := by
  exact_mod_cast stepsPerOne_pos

/-- Steps round to the magnitude that they are read back as. -/
theorem isNearest_steps_iff : IsNearest (steps / stepsPerOne) m ↔ ofSteps steps = m := by
  have hnearest : IsNearest (steps / stepsPerOne) (ofSteps steps) := by
    rw [stepsPerOne_eq, Nat.cast_mul]
    exact isNearest_nearest stepsPerUnit_pos
  constructor
  · exact fun h => hnearest.unique h
  · rintro rfl
    exact hnearest

theorem size_eq_exactSteps (m : Magnitude) : size m = exactSteps m / stepsPerOne := by
  have hunit : (stepsPerUnit : ℚ) ≠ 0 := by exact_mod_cast stepsPerUnit_pos.ne'
  rw [size, exactSteps, stepsPerOne_eq, Nat.cast_mul, Nat.cast_mul, mul_comm (stepsPerUnit : ℚ),
    mul_div_mul_right _ _ hunit]

theorem abs_sub_size (m : Magnitude) (x : ℚ) :
    |x / stepsPerOne - size m| = |x - exactSteps m| / stepsPerOne := by
  rw [size_eq_exactSteps, ← sub_div, abs_div, abs_of_pos stepsPerOne_cast_pos]

theorem eq_zero_of_isNearest_zero (h : IsNearest 0 m) : m = .zero := by
  have hunits : Magnitude.zero.units = 0 := rfl
  have hzero : exactSteps .zero = 0 := by rw [exactSteps, hunits, Nat.zero_mul]
  have hreads := ofSteps_exactSteps .zero
  rw [hzero, ← isNearest_steps_iff, Nat.cast_zero, zero_div] at hreads
  exact h.unique hreads

theorem exactSteps_lt_above (m : Magnitude) (hspacing : 0 < spacing) :
    exactSteps m < above m spacing :=
  Nat.lt_div_mul_add hspacing

/-- If a number that is not between the two multiples rounds to the magnitude, the multiple on its
side of the exact value does. -/
theorem ofSteps_of_isBeside (hspacing : 0 < spacing) (hbeside : IsBeside m spacing x)
    (h : IsNearest (x / stepsPerOne) m) :
    (x ≤ below m spacing ∧ ofSteps (below m spacing) = m) ∨
      (above m spacing ≤ x ∧ ofSteps (above m spacing) = m) := by
  have hexact : IsNearest (exactSteps m / stepsPerOne) m :=
    isNearest_steps_iff.mpr (ofSteps_exactSteps m)
  have hlower : (below m spacing : ℚ) ≤ exactSteps m := by
    exact_mod_cast below_le_exactSteps m spacing
  have hupper : (exactSteps m : ℚ) ≤ above m spacing := by
    exact_mod_cast (exactSteps_lt_above m hspacing).le
  have hscale := stepsPerOne_cast_pos.le
  rcases hbeside with hle | hge
  · refine Or.inl ⟨hle, isNearest_steps_iff.mp (h.convex hexact ?_ ?_)⟩
    · exact div_le_div_of_nonneg_right hle hscale
    · exact div_le_div_of_nonneg_right hlower hscale
  · refine Or.inr ⟨hge, isNearest_steps_iff.mp (hexact.convex h ?_ ?_)⟩
    · exact div_le_div_of_nonneg_right hupper hscale
    · exact div_le_div_of_nonneg_right hge hscale

theorem not_isNearest_of_miss (hspacing : 0 < spacing) (hmiss : onSpacing? m spacing = none)
    (hbeside : IsBeside m spacing x) : ¬ IsNearest (x / stepsPerOne) m := by
  intro h
  rcases onSpacing?_cases m spacing with ⟨heq, -⟩ | ⟨heq, -⟩ | ⟨-, hbelow, habove⟩
  · cases heq.symm.trans hmiss
  · cases heq.symm.trans hmiss
  · rcases ofSteps_of_isBeside hspacing hbeside h with ⟨-, hreads⟩ | ⟨-, hreads⟩
    · exact hbelow hreads
    · exact habove hreads

/-- A hit is as close to the exact value as anything beside the two multiples that rounds to the
magnitude. -/
theorem abs_sub_le_of_hit (hspacing : 0 < spacing) (hhit : onSpacing? m spacing = some steps)
    (hbeside : IsBeside m spacing x) (h : IsNearest (x / stepsPerOne) m) :
    |(steps : ℚ) - exactSteps m| ≤ |x - exactSteps m| := by
  have hlower : (below m spacing : ℚ) ≤ exactSteps m := by
    exact_mod_cast below_le_exactSteps m spacing
  have hupper : (exactSteps m : ℚ) < above m spacing := by
    exact_mod_cast exactSteps_lt_above m hspacing
  have hside := ofSteps_of_isBeside hspacing hbeside h
  rcases onSpacing?_cases m spacing with ⟨heq, -, hcloser⟩ | ⟨heq, -, hcloser⟩ | ⟨heq, -⟩
  · cases heq.symm.trans hhit
    rw [abs_of_nonpos (by linarith)]
    rcases hside with ⟨hle, -⟩ | ⟨hge, hreads⟩
    · rw [abs_of_nonpos (by linarith)]
      linarith
    · have hmiddle : (2 * exactSteps m : ℚ) ≤ below m spacing + above m spacing := by
        exact_mod_cast hcloser hreads
      rw [abs_of_nonneg (by linarith)]
      linarith
  · cases heq.symm.trans hhit
    rw [abs_of_nonneg (by linarith)]
    rcases hside with ⟨hle, hreads⟩ | ⟨hge, -⟩
    · have hmiddle : (below m spacing + above m spacing : ℚ) ≤ 2 * exactSteps m := by
        exact_mod_cast hcloser hreads
      rw [abs_of_nonpos (by linarith)]
      linarith
    · rw [abs_of_nonneg (by linarith)]
      linarith
  · cases heq.symm.trans hhit

theorem stepsPerOne_eq_zpow : (stepsPerOne : ℚ) = 10 ^ (1074 : Int) := by
  rw [stepsPerOne_eq_pow, Nat.cast_pow, Nat.cast_ofNat]
  rfl

theorem isDecimal_mul_stepsPerOne (h : IsDecimal digits x) :
    IsDecimal digits (x * stepsPerOne) := by
  rw [stepsPerOne_eq_zpow]
  exact h.mul_zpow 1074

theorem isDecimal_div_stepsPerOne (h : IsDecimal digits x) :
    IsDecimal digits (x / stepsPerOne) := by
  rw [stepsPerOne_eq_zpow, div_eq_mul_inv, ← zpow_neg]
  exact h.mul_zpow (-1074)

/-- A hit on the spacing of all but so many leading places of the exact value has so many digits. -/
theorem isDecimal_of_hit (hexact : exactSteps m < 10 ^ (level + (digits + 1)))
    (hhit : onSpacing? m (10 ^ level) = some steps) : IsDecimal (digits + 1) steps := by
  have hquotient : exactSteps m / 10 ^ level < 10 ^ (digits + 1) := by
    rw [Nat.div_lt_iff_lt_mul (Nat.pow_pos (by decide)), ← Nat.pow_add, Nat.add_comm]
    exact hexact
  have hmultiple : ∀ c, c ≤ 10 ^ (digits + 1) → IsDecimal (digits + 1) (c * 10 ^ level : Nat) := by
    intro c hc
    have hdecimal := isDecimal_of_le hc level
    rw [zpow_natCast] at hdecimal
    exact_mod_cast hdecimal
  rcases (hit_of_onSpacing? hhit).2 with rfl | rfl
  · exact hmultiple _ hquotient.le
  · rw [above, below, ← Nat.succ_mul]
    exact hmultiple _ hquotient

theorem exactSteps_pos (hzero : m.isZero = false) : 0 < exactSteps m := by
  refine Nat.mul_pos (Nat.pos_of_ne_zero fun hunits => ?_) stepsPerUnit_pos
  have hmagnitude := nearest_units m
  rw [hunits] at hmagnitude
  rw [← hmagnitude] at hzero
  cases hzero

/-- A numeral with one more place is at least the power of ten of the others and below the next. -/
theorem toDigits_bounds {n : Nat} (hpos : 0 < n) :
    10 ^ ((Nat.toDigits 10 n).length - 1) ≤ n ∧ n < 10 ^ ((Nat.toDigits 10 n).length - 1 + 1) := by
  have hlength : 0 < (Nat.toDigits 10 n).length := List.length_pos_of_ne_nil Nat.toDigits_ne_nil
  have hiff : ∀ {k : Nat}, 0 < k → ((Nat.toDigits 10 n).length ≤ k ↔ n < 10 ^ k) :=
    fun hk => Nat.length_toDigits_le_iff (by decide) hk
  constructor
  · by_contra hlt
    by_cases hsingle : (Nat.toDigits 10 n).length - 1 = 0
    · rw [hsingle, Nat.pow_zero] at hlt
      omega
    · have hshorter := (hiff (Nat.pos_of_ne_zero hsingle)).mpr (by omega)
      omega
  · exact (hiff (Nat.succ_pos _)).mp (by omega)

/-- The search finds a decimal that rounds to the magnitude. No decimal of fewer digits does, and of
those with as many digits none that does is closer. -/
theorem exists_digits (hzero : m.isZero = false) :
    ∃ digits, IsDecimal digits (shortestSteps m / stepsPerOne) ∧
      (∀ fewer < digits, ∀ x, IsDecimal fewer x → ¬ IsNearest x m) ∧
      ∀ x, IsDecimal digits x → IsNearest x m →
        |shortestSteps m / stepsPerOne - size m| ≤ |x - size m| := by
  obtain ⟨hleading, hbound⟩ := toDigits_bounds (exactSteps_pos hzero)
  obtain ⟨found, hfound, hhit, hmiss⟩ :=
    first_hit m ((Nat.toDigits 10 (exactSteps m)).length - 1)
  change onSpacing? m (10 ^ found) = some (shortestSteps m) at hhit
  generalize (Nat.toDigits 10 (exactSteps m)).length - 1 = top at hleading hbound hfound hmiss
  obtain ⟨digits, rfl⟩ := Nat.exists_eq_add_of_le hfound
  have hpos : ∀ level : Nat, 0 < 10 ^ level := fun level => Nat.pow_pos (by decide)
  have hscale : (stepsPerOne : ℚ) ≠ 0 := stepsPerOne_cast_pos.ne'
  have hsteps : ∀ x : ℚ, IsNearest x m → IsNearest (x * stepsPerOne / stepsPerOne) m := by
    intro x h
    rwa [mul_div_cancel_right₀ _ hscale]
  refine ⟨digits + 1, ?_, ?_, ?_⟩
  · exact isDecimal_div_stepsPerOne (isDecimal_of_hit hbound hhit)
  · intro fewer hfewer x hx hnearest
    cases fewer with
    | zero =>
      rw [eq_zero_of_isDecimal_zero hx] at hnearest
      cases eq_zero_of_isNearest_zero hnearest
      cases hzero
    | succ fewer =>
      have hcoarser := hmiss (found + (digits - fewer)) (by omega) (by omega)
      have hplaces : found + (digits - fewer) + fewer = found + digits := by omega
      have hbeside : IsBeside m (10 ^ (found + (digits - fewer))) (x * stepsPerOne) :=
        isBeside_of_isDecimal (hplaces ▸ hleading) (isDecimal_mul_stepsPerOne hx)
      exact not_isNearest_of_miss (hpos _) hcoarser hbeside (hsteps x hnearest)
  · intro x hx hnearest
    have hbeside := isBeside_of_isDecimal hleading (isDecimal_mul_stepsPerOne hx)
    have hcloser := abs_sub_le_of_hit (hpos _) hhit hbeside (hsteps x hnearest)
    calc |shortestSteps m / stepsPerOne - size m|
        = |(shortestSteps m : ℚ) - exactSteps m| / stepsPerOne := abs_sub_size m _
      _ ≤ |x * stepsPerOne - exactSteps m| / stepsPerOne :=
          div_le_div_of_nonneg_right hcloser stepsPerOne_cast_pos.le
      _ = |x - size m| := by rw [← abs_sub_size, mul_div_cancel_right₀ _ hscale]

end InfixArithmetic.DecimalSpacings
