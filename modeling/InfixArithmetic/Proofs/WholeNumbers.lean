import InfixArithmetic.Proofs.PrintedValues

/-!
Whole numbers up to 2^53 are values. Rounding leaves each of them as it is, so sums, differences,
products and exact quotients that stay within that limit are computed without error; at most a zero
gets the wrong sign. The shortest decimal of such a number is the number itself: a coarser one that
reads back would be another whole number, and the next even number above 2^53 is a value of its own.
-/
namespace InfixArithmetic.WholeNumbers

open BinaryGrid Binary64 DecimalLiterals DecimalSpacings DecimalTexts MaximalMunch NumberText
  PrintedValues Rounding Sentences ShortestDecimals SignedZeros Tokens

/-- The magnitude nearest to a whole number. -/
def whole (n : Nat) : Magnitude := nearest (n * unitsPerOne) 1

/-- A whole number of units that is scaled up and down again is still that number. -/
theorem nearest_scaled (n : Nat) {k : Nat} (hk : 0 < k) :
    nearest (n * unitsPerOne * k) k = whole n := by
  have hscaled := nearest_mul_right (n * unitsPerOne) 1 hk
  rw [Nat.one_mul] at hscaled
  exact hscaled

/-- The value of an integer, which for zero is the positive one. -/
def ofInt (z : Int) : Value := .number (decide (z < 0)) (whole z.natAbs)

/-- Up to this limit, 2^53, every whole number is a magnitude. -/
def wholeLimit : Nat := 0x20000000000000

theorem wholeLimit_eq : wholeLimit = 2 ^ 53 := rfl

/-- A whole number with at most 53 significant bits is a size unless it is beyond all of them. -/
theorem units_whole_of_bits {q k : Nat} (hq : q < 2 ^ 53) (hk : k ≤ 971) :
    (whole (q * 2 ^ k)).units = q * 2 ^ k * unitsPerOne := by
  have hsplit : q * 2 ^ k * unitsPerOne = q * 2 ^ (k + 1074) := by
    rw [unitsPerOne_eq, Nat.mul_assoc, ← Nat.pow_add]
  have hsmall : q * 2 ^ (k + 1074) < 2 ^ 2098 := by
    calc q * 2 ^ (k + 1074) < 2 ^ 53 * 2 ^ (k + 1074) :=
          Nat.mul_lt_mul_of_pos_right hq (Nat.two_pow_pos _)
      _ = 2 ^ (53 + (k + 1074)) := (Nat.pow_add ..).symm
      _ ≤ 2 ^ 2098 := Nat.pow_le_pow_right (by decide) (by omega)
  rw [whole, hsplit, units_nearest_mul_two_pow hq hsmall]

theorem units_whole {n : Nat} (hn : n ≤ wholeLimit) : (whole n).units = n * unitsPerOne := by
  rw [wholeLimit_eq] at hn
  rcases Nat.lt_or_eq_of_le hn with hlt | rfl
  · simpa only [Nat.pow_zero, Nat.mul_one] using units_whole_of_bits hlt (Nat.zero_le 971)
  · have hsplit : 2 ^ 53 = 2 ^ 52 * 2 ^ 1 := rfl
    rw [hsplit]
    exact units_whole_of_bits (by decide) (by decide)

/-- The even number after the limit has 53 significant bits as well. -/
theorem units_whole_limit_add_two :
    (whole (wholeLimit + 2)).units = (wholeLimit + 2) * unitsPerOne := by
  have hsplit : wholeLimit + 2 = (2 ^ 52 + 1) * 2 ^ 1 := rfl
  rw [hsplit]
  exact units_whole_of_bits (by decide) (by decide)

theorem isInfinite_whole {n : Nat} (hn : n ≤ wholeLimit) : (whole n).isInfinite = false := by
  by_contra hinfinite
  have hrank : (whole n).rank = Magnitude.infinite.rank := by
    change (whole n).rank = infiniteRank
    simpa [Magnitude.isInfinite] using hinfinite
  have hunits : n * unitsPerOne = 2 ^ 52 * 2 ^ 2046 := by
    rw [← units_whole hn, magnitude_eq hrank, units_infinite]
  have hlarge : 2 ^ 53 * 2 ^ 1074 < 2 ^ 52 * 2 ^ 2046 := by
    rw [← Nat.pow_add, ← Nat.pow_add]
    exact Nat.pow_lt_pow_right (by decide) (by decide)
  have hsmall : n * unitsPerOne ≤ 2 ^ 53 * 2 ^ 1074 := by
    rw [unitsPerOne_eq]
    exact Nat.mul_le_mul_right _ hn
  omega

theorem isZero_whole {n : Nat} (hn : n ≤ wholeLimit) (hpos : 0 < n) : (whole n).isZero = false := by
  by_contra hzero
  have hrank : (whole n).rank = Magnitude.zero.rank := by
    change (whole n).rank = 0
    simpa [Magnitude.isZero] using hzero
  have hunits : n * unitsPerOne = 0 := by
    rw [← units_whole hn, magnitude_eq hrank, units_zero]
  have hproduct := Nat.mul_pos hpos unitsPerOne_pos
  omega

theorem whole_zero : whole 0 = .zero := by
  rw [whole, Nat.zero_mul, nearest_zero]

theorem isFinite_ofInt {z : Int} (hz : z.natAbs ≤ wholeLimit) : (ofInt z).isFinite = true := by
  rw [ofInt, Value.isFinite, isInfinite_whole hz, Bool.not_false]

theorem isZero_ofInt {z : Int} (hz : z.natAbs ≤ wholeLimit) :
    (ofInt z).isZero = true ↔ z = 0 := by
  by_cases hzero : z = 0
  · subst hzero
    have hwhole : (ofInt 0).isZero = (whole 0).isZero := rfl
    rw [hwhole, whole_zero]
    exact ⟨fun _ => rfl, fun _ => rfl⟩
  · have hpos : 0 < z.natAbs := by omega
    have hfalse : (ofInt z).isZero = false := isZero_whole hz hpos
    rw [hfalse]
    exact ⟨nofun, fun h => absurd h hzero⟩

/-- The sign of an integer matters only if it is not zero. -/
theorem alike_ofInt {z : Int} {s : Bool} (hsign : z ≠ 0 → s = decide (z < 0)) :
    Alike (.number s (whole z.natAbs)) (ofInt z) := by
  by_cases hzero : z = 0
  · subst hzero
    have hwhole : (whole (Int.natAbs 0)).isZero = true := by
      rw [Int.natAbs_zero, whole_zero]
      rfl
    exact Or.inr ⟨hwhole, hwhole⟩
  · rw [hsign hzero]
    exact alike_refl _

theorem neg_ofInt (z : Int) : Alike (ofInt z).neg (ofInt (-z)) := by
  have hsize : (-z).natAbs = z.natAbs := Int.natAbs_neg z
  have hsign : -z ≠ 0 → (!decide (z < 0)) = decide (-z < 0) := by
    intro hne
    by_cases hneg : z < 0
    · have hpos : ¬ -z < 0 := by omega
      rw [decide_eq_true hneg, decide_eq_false hpos, Bool.not_true]
    · have hneg' : -z < 0 := by omega
      rw [decide_eq_false hneg, decide_eq_true hneg', Bool.not_false]
  have halike := alike_ofInt hsign
  rw [hsize] at halike
  exact halike

theorem sign_mul {x y : Int} (hne : x * y ≠ 0) :
    (decide (x < 0) != decide (y < 0)) = decide (x * y < 0) := by
  obtain ⟨hx, hy⟩ := Int.mul_ne_zero_iff.mp hne
  by_cases hxneg : x < 0 <;> by_cases hyneg : y < 0
  · have hpos := Int.mul_pos_of_neg_of_neg hxneg hyneg
    simp [hxneg, hyneg, Int.le_of_lt hpos]
  · have hneg := Int.mul_neg_of_neg_of_pos hxneg (show 0 < y by omega)
    simp [hxneg, hyneg, hneg]
  · have hneg := Int.mul_neg_of_pos_of_neg (show 0 < x by omega) hyneg
    simp [hxneg, hyneg, hneg]
  · have hpos := Int.mul_pos (show 0 < x by omega) (show 0 < y by omega)
    simp [hxneg, hyneg, Int.le_of_lt hpos]

section

variable {x y : Int} (hx : x.natAbs ≤ wholeLimit) (hy : y.natAbs ≤ wholeLimit)

include hx hy

theorem add_ofInt : (ofInt x).add (ofInt y) = ofInt (x + y) := by
  have hxunits := units_whole hx
  have hyunits := units_whole hy
  have hxfinite := isInfinite_whole hx
  have hyfinite := isInfinite_whole hy
  unfold ofInt Value.add
  simp only [hxfinite, hyfinite, hxunits, hyunits, Bool.false_eq_true, if_false]
  by_cases hsame : decide (x < 0) = decide (y < 0)
  · have hiff : x < 0 ↔ y < 0 := by simpa using hsame
    have hsize : (x + y).natAbs = x.natAbs + y.natAbs := by omega
    have hsign : decide (x + y < 0) = decide (x < 0) := decide_eq_decide.mpr (by omega)
    rw [if_pos hsame, ← Nat.add_mul, hsize, hsign]
    rfl
  · have hiff : ¬ (x < 0 ↔ y < 0) := by simpa using hsame
    rw [if_neg hsame]
    rcases Nat.lt_trichotomy y.natAbs x.natAbs with hlt | heq | hlt
    · have hsize : (x + y).natAbs = x.natAbs - y.natAbs := by omega
      have hsign : decide (x + y < 0) = decide (x < 0) := decide_eq_decide.mpr (by omega)
      have hunits := Nat.mul_lt_mul_of_pos_right hlt unitsPerOne_pos
      rw [if_pos hunits, ← Nat.sub_mul, hsize, hsign]
      rfl
    · have hsum : x + y = 0 := by omega
      rw [heq, if_neg (Nat.lt_irrefl _), if_neg (Nat.lt_irrefl _), hsum, Int.natAbs_zero,
        whole_zero]
      rfl
    · have hsize : (x + y).natAbs = y.natAbs - x.natAbs := by omega
      have hsign : decide (x + y < 0) = decide (y < 0) := decide_eq_decide.mpr (by omega)
      have hunits := Nat.mul_lt_mul_of_pos_right hlt unitsPerOne_pos
      rw [if_neg (Nat.lt_asymm hunits), if_pos hunits, ← Nat.sub_mul, hsize, hsign]
      rfl

theorem sub_ofInt : Alike ((ofInt x).sub (ofInt y)) (ofInt (x - y)) := by
  have hneg : (-y).natAbs ≤ wholeLimit := by omega
  have hsum : (ofInt x).add (ofInt (-y)) = ofInt (x - y) := by
    rw [add_ofInt hx hneg, Int.sub_eq_add_neg]
  have halike := (alike_refl (ofInt x)).add (neg_ofInt y)
  rw [hsum] at halike
  exact halike

theorem mul_ofInt : Alike ((ofInt x).mul (ofInt y)) (ofInt (x * y)) := by
  have hproduct : nearest (x.natAbs * unitsPerOne * (y.natAbs * unitsPerOne)) unitsPerOne =
      whole (x * y).natAbs := by
    have hunits : x.natAbs * unitsPerOne * (y.natAbs * unitsPerOne) =
        (x * y).natAbs * unitsPerOne * unitsPerOne := by
      rw [Int.natAbs_mul]
      ring
    rw [hunits, nearest_scaled _ unitsPerOne_pos]
  have hvalue : (ofInt x).mul (ofInt y) =
      .number (decide (x < 0) != decide (y < 0)) (whole (x * y).natAbs) := by
    have hxunits := units_whole hx
    have hyunits := units_whole hy
    have hxfinite := isInfinite_whole hx
    have hyfinite := isInfinite_whole hy
    simp only [ofInt, Value.mul, hxfinite, hyfinite, hxunits, hyunits, hproduct, Bool.or_self,
      Bool.false_eq_true, if_false]
  rw [hvalue]
  exact alike_ofInt sign_mul

/-- An exact quotient within the limit is computed without error. -/
theorem div_ofInt (hne : y ≠ 0) (hdvd : y ∣ x) :
    Alike ((ofInt x).div (ofInt y)) (ofInt (x / y)) := by
  have hypos : 0 < y.natAbs := by omega
  obtain ⟨q, rfl⟩ := hdvd
  have hquotient : y * q / y = q := Int.mul_ediv_cancel_left q hne
  have hratio : nearest ((y * q).natAbs * unitsPerOne * unitsPerOne) (y.natAbs * unitsPerOne) =
      whole q.natAbs := by
    have hunits : (y * q).natAbs * unitsPerOne * unitsPerOne =
        q.natAbs * unitsPerOne * (y.natAbs * unitsPerOne) := by
      rw [Int.natAbs_mul]
      ring
    have hfactor : 0 < y.natAbs * unitsPerOne := Nat.mul_pos hypos unitsPerOne_pos
    rw [hunits, nearest_scaled _ hfactor]
  have hvalue : (ofInt (y * q)).div (ofInt y) =
      .number (decide (y * q < 0) != decide (y < 0)) (whole q.natAbs) := by
    have hxunits := units_whole hx
    have hyunits := units_whole hy
    have hxfinite := isInfinite_whole hx
    have hyfinite := isInfinite_whole hy
    have hyzero := isZero_whole hy hypos
    simp only [ofInt, Value.div, hxfinite, hyfinite, hyzero, hxunits, hyunits, hratio,
      Bool.false_eq_true, if_false]
  have hsign : q ≠ 0 → (decide (y * q < 0) != decide (y < 0)) = decide (q < 0) := by
    intro hq
    have hmul := sign_mul (x := y) (y := q) (Int.mul_ne_zero hne hq)
    rw [← hmul]
    cases decide (y < 0) <;> cases decide (q < 0) <;> rfl
  rw [hvalue, hquotient]
  exact alike_ofInt hsign

end

/-- The operation on integers. A quotient is meant only where it is exact. -/
def onIntegers : Operation → Int → Int → Int
  | .add, x, y => x + y
  | .subtract, x, y => x - y
  | .multiply, x, y => x * y
  | .divide, x, y => x / y

/-- Operations on values that are integers within the limit are exact. -/
theorem arithmetic_ofInt (operation : Operation) {v w : Value} {x y : Int}
    (hv : Alike v (ofInt x)) (hw : Alike w (ofInt y)) (hx : x.natAbs ≤ wholeLimit)
    (hy : y.natAbs ≤ wholeLimit) (hdivides : operation = .divide → y ≠ 0 ∧ y ∣ x) :
    Alike (arithmetic operation v w) (ofInt (onIntegers operation x y)) := by
  cases operation with
  | add =>
    have hsum := hv.add hw
    rw [add_ofInt hx hy] at hsum
    exact hsum
  | subtract => exact (hv.add hw.neg).trans (sub_ofInt hx hy)
  | multiply => exact (hv.mul hw).trans (mul_ofInt hx hy)
  | divide =>
    obtain ⟨hne, hdvd⟩ := hdivides rfl
    have hzero : (ofInt y).isZero = false := by
      rw [Bool.eq_false_iff, ne_eq, isZero_ofInt hy]
      exact hne
    -- only zeros are alike without being equal, and the divisor is none
    rcases hw with rfl | ⟨-, hzero'⟩
    · exact (hv.div_right hzero).trans (div_ofInt hx hy hne hdvd)
    · rw [hzero] at hzero'
      cases hzero'

theorem ofSteps_whole (k : Nat) : ofSteps (k * stepsPerOne) = whole k := by
  have hsplit : k * stepsPerOne = k * unitsPerOne * stepsPerUnit := by
    rw [stepsPerOne_eq]
    ring
  rw [ofSteps, hsplit, nearest_scaled _ stepsPerUnit_pos]

theorem exactSteps_whole {n : Nat} (hn : n ≤ wholeLimit) :
    exactSteps (whole n) = n * stepsPerOne := by
  rw [exactSteps, units_whole hn, stepsPerOne_eq]
  ring

theorem rank_whole_mono {k n : Nat} (h : k ≤ n) : (whole k).rank ≤ (whole n).rank := by
  apply rank_nearest_mono Nat.one_pos Nat.one_pos
  exact Nat.mul_le_mul_right 1 (Nat.mul_le_mul_right unitsPerOne h)

/-- No other even number has the magnitude of a number within the limit. An even number beyond the
limit is at least the one after it, whose magnitude is larger. -/
theorem eq_of_whole_eq {n k : Nat} (hn : n ≤ wholeLimit) (heven : 2 ∣ k)
    (h : whole k = whole n) : k = n := by
  have hcancel : ∀ {a b : Nat}, a * unitsPerOne = b * unitsPerOne → a = b :=
    fun heq => Nat.eq_of_mul_eq_mul_right unitsPerOne_pos heq
  by_cases hk : k ≤ wholeLimit
  · have hunits := congrArg Magnitude.units h
    rw [units_whole hk, units_whole hn] at hunits
    exact hcancel hunits
  · exfalso
    have hbeyond : wholeLimit + 2 ≤ k := by
      rw [wholeLimit_eq] at hk ⊢
      omega
    have hlower := rank_whole_mono hbeyond
    have hupper := rank_whole_mono (show n ≤ wholeLimit + 2 by omega)
    rw [h] at hlower
    have hmagnitude : whole n = whole (wholeLimit + 2) :=
      magnitude_eq (Nat.le_antisymm hupper hlower)
    have hunits := congrArg Magnitude.units hmagnitude
    rw [units_whole hn, units_whole_limit_add_two] at hunits
    have heq := hcancel hunits
    omega

/-- A whole number is found on the spacing of one, where it lies exactly. -/
theorem onSpacing?_stepsPerOne {n : Nat} (hn : n ≤ wholeLimit) :
    onSpacing? (whole n) stepsPerOne = some (n * stepsPerOne) := by
  have hexact := exactSteps_whole hn
  rw [← hexact]
  exact onSpacing?_of_dvd stepsPerOne_pos (hexact ▸ Nat.dvd_mul_left ..)

/-- A hit on a coarser spacing is even and reads back as the number, so it is the number. -/
theorem eq_of_onSpacing? {n j steps : Nat} (hn : n ≤ wholeLimit)
    (h : onSpacing? (whole n) (10 ^ (j + 1) * stepsPerOne) = some steps) :
    steps = n * stepsPerOne := by
  obtain ⟨q, rfl⟩ := dvd_of_onSpacing? h
  have hsplit : 10 ^ (j + 1) * stepsPerOne * q = 10 ^ (j + 1) * q * stepsPerOne := by ring
  have hmagnitude := (hit_of_onSpacing? h).1
  rw [hsplit, ofSteps_whole] at hmagnitude
  have heven : 2 ∣ 10 ^ (j + 1) * q := by
    have hten : 2 ∣ 10 ^ (j + 1) :=
      Dvd.dvd.trans (by decide) (dvd_pow_self 10 (Nat.succ_ne_zero j))
    exact Dvd.dvd.mul_right hten q
  rw [hsplit, eq_of_whole_eq hn heven hmagnitude]

/-- From the spacing of one upward every search for a whole number ends with it, since a hit on the
way down is the number already. -/
theorem shortestFrom_whole {n level : Nat} (hn : n ≤ wholeLimit) (hlevel : 1074 ≤ level) :
    shortestFrom (whole n) level = n * stepsPerOne := by
  induction level, hlevel using Nat.le_induction with
  | base =>
    have hone : shortestFrom (whole n) 1074 =
        (onSpacing? (whole n) stepsPerOne).getD (shortestFrom (whole n) 1073) := rfl
    rw [hone, onSpacing?_stepsPerOne hn, Option.getD_some]
  | succ level hlevel ih =>
    have hspacing : Nat.pow 10 (level + 1) = 10 ^ (level - 1074 + 1) * stepsPerOne := by
      have hsum : level + 1 = level - 1074 + 1 + 1074 := by omega
      rw [stepsPerOne_eq_pow, ← Nat.pow_add, ← hsum]
      rfl
    rw [shortestFrom, hspacing]
    cases hhit : onSpacing? (whole n) (10 ^ (level - 1074 + 1) * stepsPerOne) with
    | none => exact ih
    | some steps => exact eq_of_onSpacing? hn hhit

/-- The shortest decimal of a whole number is that number. -/
theorem shortestSteps_whole {n : Nat} (hn : n ≤ wholeLimit) (hpos : 0 < n) :
    shortestSteps (whole n) = n * stepsPerOne := by
  have hlong : ¬ (Nat.toDigits 10 (n * stepsPerOne)).length ≤ 1074 := by
    rw [Nat.length_toDigits_le_iff (by decide) (by decide), ← stepsPerOne_eq_pow]
    have hle := Nat.le_mul_of_pos_left stepsPerOne hpos
    omega
  rw [shortestSteps, exactSteps_whole hn, shortestFrom_whole hn (by omega)]

theorem fractionDigits_zero : fractionDigits 0 = [] := by
  have hzeros : ∀ c ∈ ((Nat.toDigits 10 0).leftpad 1074 '0').reverse, (c == '0') = true := by
    intro c hc
    rw [List.mem_reverse, List.leftpad, List.mem_append] at hc
    rcases hc with hpad | hdigit
    · rw [List.eq_of_mem_replicate hpad]
      rfl
    · rw [Nat.toDigits_zero, List.mem_singleton] at hdigit
      rw [hdigit]
      rfl
  rw [fractionDigits, List.dropWhile_eq_nil_iff.mpr hzeros, List.reverse_nil]

/-- A whole number is written without a point. -/
theorem positional_whole (n : Nat) : positional (n * stepsPerOne) = Nat.toDigits 10 n := by
  have hwhole : n * stepsPerOne / stepsPerOne = n := Nat.mul_div_cancel n stepsPerOne_pos
  have hrest : n * stepsPerOne % stepsPerOne = 0 := Nat.mul_mod_left n stepsPerOne
  rw [positional_eq, hwhole, hrest, fractionDigits_zero, pointed, List.append_nil]

/-- The text of an integer within the limit is its decimal numeral. -/
theorem formatValue_ofInt {z : Int} (hz : z.natAbs ≤ wholeLimit) :
    formatValue (ofInt z) = toString z := by
  by_cases hzero : z = 0
  · subst hzero
    rw [formatValue_of_isZero ((isZero_ofInt hz).mpr rfl)]
    rfl
  · have hpos : 0 < z.natAbs := by omega
    have hdigits : String.ofList (positional (shortestSteps (whole z.natAbs))) =
        z.natAbs.repr := by
      rw [shortestSteps_whole hz hpos, positional_whole, Nat.repr_eq_ofList_toDigits]
    rw [ofInt, formatValue_eq (isZero_whole hz hpos) (isInfinite_whole hz), hdigits,
      Int.toString_eq_repr, Int.repr_eq_if]
    by_cases hneg : z < 0
    · have hsize : z.natAbs = (-z).toNat := by omega
      rw [if_pos (decide_eq_true hneg), if_neg (Int.not_le.mpr hneg), hsize]
    · have hsize : z.natAbs = z.toNat := by omega
      rw [if_neg (by simpa using hneg), if_pos (Int.not_lt.mp hneg), hsize]

theorem formatValue_of_alike_ofInt {v : Value} {z : Int} (hz : z.natAbs ≤ wholeLimit)
    (h : Alike v (ofInt z)) : formatValue v = toString z := by
  rw [h.formatValue_eq, formatValue_ofInt hz]

theorem magnitude_toDigits (n : Nat) : magnitude (Nat.toDigits 10 n) = whole n := by
  have hsteps := magnitude_positional (n * stepsPerOne)
  rw [positional_whole, ofSteps_whole] at hsteps
  exact hsteps

/-- The numeral of a number within the limit is a literal of that number. -/
theorem lex_cut_toDigits {n : Nat} (hn : n ≤ wholeLimit) :
    lex (cut (Nat.toDigits 10 n)) = .ok [.number (.number false (whole n))] := by
  have hfinite := isInfinite_whole hn
  rw [← magnitude_toDigits] at hfinite ⊢
  exact lex_cut_literal (isAcceptable_toDigits hfinite)
    fun c hc => isLiteralChar_of_isDigit (isDigit_of_mem_toDigits hc)

end InfixArithmetic.WholeNumbers
