import InfixArithmetic.Proofs.NumberLiterals
import InfixArithmetic.Proofs.PrintedValues
import Mathlib.Computability.RegularExpressions

/-!
The text of a finite value. It has one form, described by a regular expression: a minus for negative
values, a whole part without idle zeros, and a fraction that ends in another digit than zero. As a
decimal the text rounds to the value it was made from. No decimal with fewer significant digits
does, and of those with as many none that does is closer to the value.
-/
namespace InfixArithmetic.ShortestTexts

open BinaryGrid Binary64 CharacterClasses DecimalLiterals DecimalSpacings DecimalTexts
  NearestMagnitudes NumberLiterals NumberText PrintedValues ShortestDecimals

def anyOf (chars : List Char) : RegularExpression Char :=
  chars.foldr (fun c rest => .char c + rest) 0

def nonzeroDigit : RegularExpression Char := anyOf ['1', '2', '3', '4', '5', '6', '7', '8', '9']

def digit : RegularExpression Char := .char '0' + nonzeroDigit

def wholePart : RegularExpression Char := .char '0' + nonzeroDigit * digit.star

def fractionPart : RegularExpression Char := .char '.' * digit.star * nonzeroDigit

/-- The form -?(0|[1-9][0-9]*)(\.[0-9]*[1-9])? of decimals, which has no exponent. -/
def canonicalForm : RegularExpression Char := (1 + .char '-') * wholePart * (1 + fractionPart)

def signed (negative : Bool) (x : ℚ) : ℚ := if negative then -x else x

/-- The number that a decimal text stands for. -/
def writtenValue (text : List Char) : ℚ :=
  if text.head? = some '-' then -exactValue text.tail else exactValue text

/-- The nearest magnitude, with the sign of the number. -/
def RoundsTo (x : ℚ) (negative : Bool) (m : Magnitude) : Prop :=
  negative = decide (x < 0) ∧ IsNearest |x| m

/-- The text of a value other than zero: of canonical form, with a minus only for negative values,
never a minus zero. As a decimal it rounds to the value. No decimal with fewer significant digits
rounds to the value, and none that has as many and rounds to it is closer to it. -/
structure IsShortestText (negative : Bool) (m : Magnitude) (text : List Char) : Prop where
  canonical : text ∈ canonicalForm.matches'
  minus : text.head? = some '-' ↔ negative = true
  ne_minus_zero : text ≠ ['-', '0']
  rounds : RoundsTo (writtenValue text) negative m
  shortest : ∃ digits, IsDecimal digits |writtenValue text| ∧
    (∀ fewer < digits, ∀ x, IsDecimal fewer |x| → ¬ RoundsTo x negative m) ∧
    ∀ x, IsDecimal digits |x| → RoundsTo x negative m →
      |writtenValue text - signed negative (size m)| ≤ |x - signed negative (size m)|

theorem singleton_mem_anyOf {c : Char} {chars : List Char} (h : c ∈ chars) :
    [c] ∈ (anyOf chars).matches' := by
  induction chars with
  | nil => cases h
  | cons d chars ih =>
    change [c] ∈ (RegularExpression.char d).matches' + (anyOf chars).matches'
    rw [Language.mem_add]
    rcases List.mem_cons.mp h with rfl | htail
    · exact Or.inl rfl
    · exact Or.inr (ih htail)

theorem mem_nonzeroDigit {c : Char} (hdigit : c.isDigit = true) (hne : c ≠ '0') :
    [c] ∈ nonzeroDigit.matches' := by
  apply singleton_mem_anyOf
  have hlisted : ∀ n < 58, (Char.ofNat n).isDigit = true → Char.ofNat n ≠ '0' →
      Char.ofNat n ∈ ['1', '2', '3', '4', '5', '6', '7', '8', '9'] := by decide
  have hrange := toNat_of_isDigit hdigit
  have hc := hlisted c.toNat (by omega)
  rw [Char.ofNat_toNat] at hc
  exact hc hdigit hne

theorem mem_digit {c : Char} (hdigit : c.isDigit = true) : [c] ∈ digit.matches' := by
  rw [digit, RegularExpression.matches'_add, Language.mem_add]
  by_cases hzero : c = '0'
  · subst hzero
    exact Or.inl rfl
  · exact Or.inr (mem_nonzeroDigit hdigit hzero)

theorem mem_digit_star {text : List Char} (h : ∀ c ∈ text, c.isDigit = true) :
    text ∈ digit.star.matches' := by
  rw [RegularExpression.matches'_star, Language.mem_kstar]
  refine ⟨text.map fun c => [c], ?_, ?_⟩
  · rw [← List.flatMap_def, List.flatMap_singleton']
  · intro piece hpiece
    obtain ⟨c, hc, rfl⟩ := List.mem_map.mp hpiece
    exact mem_digit (h c hc)

theorem toDigits_mem_wholePart (n : Nat) : Nat.toDigits 10 n ∈ wholePart.matches' := by
  rw [wholePart, RegularExpression.matches'_add, Language.mem_add]
  rcases Nat.eq_zero_or_pos n with rfl | hpos
  · exact Or.inl (Nat.toDigits_zero 10)
  · right
    have hhead := head?_toDigits hpos
    have hdigits : ∀ c ∈ Nat.toDigits 10 n, c.isDigit = true :=
      fun c hc => isDigit_of_mem_toDigits hc
    obtain ⟨c, rest, heq⟩ := List.exists_cons_of_ne_nil (Nat.toDigits_ne_nil (n := n) (b := 10))
    rw [heq] at hhead hdigits ⊢
    obtain ⟨hfirst, hrest⟩ := List.forall_mem_cons.mp hdigits
    rw [RegularExpression.matches'_mul, Language.mem_mul]
    have hne : c ≠ '0' := fun hzero => hhead (by rw [hzero, List.head?_cons])
    exact ⟨[c], mem_nonzeroDigit hfirst hne, rest, mem_digit_star hrest, rfl⟩

/-- The zeros at the end of a fraction are left out. -/
theorem getLast_fractionDigits {steps : Nat} (h : fractionDigits steps ≠ []) :
    (fractionDigits steps).getLast h ≠ '0' := by
  have hlast : ((fractionDigits steps).getLast h == '0') ≠ true :=
    List.rdropWhile_last_not (· == '0') ((Nat.toDigits 10 steps).leftpad 1074 '0') h
  simpa using hlast

theorem pointed_mem_fractionPart (steps : Nat) :
    pointed (fractionDigits steps) ∈ (1 + fractionPart).matches' := by
  rw [RegularExpression.matches'_add, Language.mem_add]
  by_cases hnil : fractionDigits steps = []
  · left
    rw [hnil]
    rfl
  · right
    have hdigits : ∀ c ∈ fractionDigits steps, c.isDigit = true :=
      fun c hc => isDigit_of_mem_fractionDigits hc
    have hlast := getLast_fractionDigits hnil
    have hsplit := List.dropLast_concat_getLast hnil
    generalize (fractionDigits steps).getLast hnil = c at hlast hsplit
    generalize (fractionDigits steps).dropLast = front at hsplit
    rw [← hsplit] at hdigits ⊢
    obtain ⟨hfront, hc⟩ := List.forall_mem_append.mp hdigits
    have hpointed : pointed (front ++ [c]) = ['.'] ++ front ++ [c] := by
      cases front <;> rfl
    rw [hpointed, fractionPart, RegularExpression.matches'_mul, RegularExpression.matches'_mul]
    refine Language.append_mem_mul (Language.append_mem_mul rfl (mem_digit_star hfront)) ?_
    exact mem_nonzeroDigit (hc c (List.mem_singleton_self c)) hlast

def minus (negative : Bool) : List Char := if negative then ['-'] else []

theorem mem_canonicalForm (negative : Bool) (steps : Nat) :
    minus negative ++ positional steps ∈ canonicalForm.matches' := by
  have hminus : minus negative ∈ (1 + RegularExpression.char '-').matches' := by
    rw [RegularExpression.matches'_add, Language.mem_add]
    cases negative with
    | false => exact Or.inl rfl
    | true => exact Or.inr rfl
  rw [positional_eq, ← List.append_assoc, canonicalForm, RegularExpression.matches'_mul,
    RegularExpression.matches'_mul]
  exact Language.append_mem_mul (Language.append_mem_mul hminus (toDigits_mem_wholePart _))
    (pointed_mem_fractionPart _)

theorem head?_positional (steps : Nat) : (positional steps).head? ≠ some '-' := by
  intro h
  have hliteral := isLiteralChar_of_mem_positional (List.mem_of_head? h)
  cases hliteral

theorem head?_minus_append (negative : Bool) (steps : Nat) :
    (minus negative ++ positional steps).head? = some '-' ↔ negative = true := by
  cases negative with
  | false => exact ⟨fun h => absurd h (head?_positional steps), nofun⟩
  | true => exact ⟨fun _ => rfl, fun _ => rfl⟩

theorem exactValue_positional {steps : Nat} (hfinite : (ofSteps steps).isInfinite = false) :
    exactValue (positional steps) = steps / stepsPerOne := by
  have hliteral : ∀ c ∈ positional steps, isLiteralChar c = true :=
    fun c hc => isLiteralChar_of_mem_positional hc
  have hcoefficient : (coefficient (positional steps) * stepsPerOne : ℚ) =
      steps * 10 ^ places (positional steps) := by
    exact_mod_cast coefficient_positional steps
  have hplaces : (10 : ℚ) ^ places (positional steps) ≠ 0 := by positivity
  rw [exactValue_eq hliteral (isAcceptable_positional hfinite).points,
    div_eq_div_iff hplaces stepsPerOne_cast_pos.ne']
  exact hcoefficient

theorem writtenValue_minus_append (negative : Bool) {steps : Nat}
    (hfinite : (ofSteps steps).isInfinite = false) :
    writtenValue (minus negative ++ positional steps) =
      signed negative (steps / stepsPerOne) := by
  rw [← exactValue_positional hfinite, writtenValue]
  cases negative with
  | false => exact if_neg (head?_positional steps)
  | true => exact if_pos rfl

theorem writtenValue_minus_zero : writtenValue ['-', '0'] = 0 := by
  have hzero : exactValue ['0'] = 0 := by decide +kernel
  change -exactValue ['0'] = 0
  rw [hzero, neg_zero]

theorem abs_signed (negative : Bool) {x : ℚ} (hx : 0 ≤ x) : |signed negative x| = x := by
  cases negative with
  | false => exact abs_of_nonneg hx
  | true => exact (abs_neg x).trans (abs_of_nonneg hx)

theorem abs_signed_sub (negative : Bool) (x y : ℚ) :
    |signed negative x - signed negative y| = |x - y| := by
  cases negative with
  | false => rfl
  | true =>
    change |-x - -y| = |x - y|
    rw [neg_sub_neg, abs_sub_comm]

theorem decide_signed_neg (negative : Bool) {x : ℚ} (hx : 0 < x) :
    negative = decide (signed negative x < 0) := by
  cases negative with
  | false => exact (decide_eq_false (not_lt.mpr hx.le)).symm
  | true => exact (decide_eq_true (neg_lt_zero.mpr hx)).symm

/-- What rounds to a value is its own size with the sign of the value. -/
theorem RoundsTo.eq_signed {x : ℚ} {negative : Bool} {m : Magnitude} (h : RoundsTo x negative m) :
    x = signed negative |x| := by
  rw [h.1]
  by_cases hneg : x < 0
  · rw [decide_eq_true hneg, abs_of_neg hneg]
    exact (neg_neg x).symm
  · rw [decide_eq_false hneg, abs_of_nonneg (not_lt.mp hneg)]
    rfl

theorem isShortestText_of_ne_zero (negative : Bool) {m : Magnitude} (hzero : m.isZero = false)
    (hfinite : m.isInfinite = false) :
    IsShortestText negative m (minus negative ++ positional (shortestSteps m)) := by
  have hreads := ofSteps_shortestSteps m
  have hwritten := writtenValue_minus_append negative (hreads.symm ▸ hfinite)
  have hnearest : IsNearest (shortestSteps m / stepsPerOne) m := isNearest_steps_iff.mpr hreads
  have hpos : (0 : ℚ) < shortestSteps m / stepsPerOne := by
    refine lt_of_le_of_ne (by positivity) fun hnone => ?_
    rw [← hnone] at hnearest
    cases eq_zero_of_isNearest_zero hnearest
    cases hzero
  have hrounds : RoundsTo (writtenValue (minus negative ++ positional (shortestSteps m)))
      negative m := by
    rw [hwritten]
    refine ⟨decide_signed_neg negative hpos, ?_⟩
    rwa [abs_signed negative hpos.le]
  obtain ⟨digits, hdecimal, hfewer, hcloser⟩ := exists_digits hzero
  refine ⟨mem_canonicalForm negative _, head?_minus_append negative _, ?_, hrounds,
    digits, ?_, ?_, ?_⟩
  · intro htext
    have hsign := hrounds.1
    have hnegative : negative = true := by
      rw [← head?_minus_append negative (shortestSteps m), htext, List.head?_cons]
    rw [htext, writtenValue_minus_zero, hnegative] at hsign
    cases hsign
  · rwa [hwritten, abs_signed negative hpos.le]
  · exact fun fewer hlt x hx h => hfewer fewer hlt |x| hx h.2
  · intro x hx h
    rw [hwritten, h.eq_signed, abs_signed_sub, abs_signed_sub]
    exact hcloser |x| hx h.2

/-- The text of a finite value other than zero is its shortest text. Both zeros have the text of
zero. -/
theorem formatValue_isShortestText (negative : Bool) (m : Magnitude)
    (hfinite : m.isInfinite = false) :
    (m.isZero = false → IsShortestText negative m (formatValue (.number negative m)).toList) ∧
    (m.isZero = true → formatValue (.number negative m) = "0") := by
  constructor
  · intro hzero
    rw [toList_formatValue hzero hfinite]
    exact isShortestText_of_ne_zero negative hzero hfinite
  · exact fun hzero => formatValue_of_isZero hzero

/-- At a power of two, here 2^-44 with a minus, the neighbour below is closer than the one above.
The decimal with 16 digits that is nearest to it, which ends in 1, does not round to it, and the
next one does. -/
theorem formatValue_isShortestText_power_of_two :
    (⟨0x3d30000000000000, by decide⟩ : Magnitude).isInfinite = false ∧
    (⟨0x3d30000000000000, by decide⟩ : Magnitude).isZero = false ∧
    IsShortestText true ⟨0x3d30000000000000, by decide⟩
      "-0.00000000000005684341886080802".toList := by
  have htext : formatValue (.number true ⟨0x3d30000000000000, by decide⟩) =
      "-0.00000000000005684341886080802" := by decide +kernel
  rw [← htext]
  exact ⟨by decide, by decide, (formatValue_isShortestText true _ (by decide)).1 (by decide)⟩

end InfixArithmetic.ShortestTexts
