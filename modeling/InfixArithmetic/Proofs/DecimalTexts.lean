import InfixArithmetic.DecimalLiterals
import InfixArithmetic.NumberText
import InfixArithmetic.Proofs.MaximalMunch
import InfixArithmetic.Proofs.Rounding
import Mathlib.Data.List.DropRight

/-!
Positional texts as literals. Without the point and apart from the zeros that were left out at their
end, the digits of a positional text write the number of steps that the text stands for. The text is
a literal that the scanner accepts, since its first digit is a zero only before the point, and its
magnitude is the one nearest to those steps.
-/
namespace InfixArithmetic.DecimalTexts

open BinaryGrid DecimalLiterals MaximalMunch NumberText Rounding ShortestDecimals

theorem stepsPerOne_eq_pow : stepsPerOne = 10 ^ 1074 := rfl

theorem stepsPerOne_pos : 0 < stepsPerOne := by
  rw [stepsPerOne_eq_pow]
  exact Nat.pow_pos (by decide)

theorem stepsPerUnit_eq_pow : stepsPerUnit = 5 ^ 1074 := rfl

theorem stepsPerUnit_pos : 0 < stepsPerUnit := by
  rw [stepsPerUnit_eq_pow]
  exact Nat.pow_pos (by decide)

theorem stepsPerOne_eq : stepsPerOne = stepsPerUnit * unitsPerOne := by
  rw [stepsPerOne_eq_pow, stepsPerUnit_eq_pow, unitsPerOne_eq, ← Nat.mul_pow]

theorem isDigit_of_mem_toDigits {n : Nat} {c : Char} (h : c ∈ Nat.toDigits 10 n) :
    c.isDigit = true :=
  Nat.isDigit_of_mem_toDigits (by decide) (by decide) h

theorem ne_point_of_isDigit {c : Char} (h : c.isDigit = true) : c ≠ '.' := by
  rintro rfl
  cases h

/-- A numeral begins with a zero only if it is that of zero. -/
theorem head?_toDigits {n : Nat} (hn : 0 < n) : (Nat.toDigits 10 n).head? ≠ some '0' := by
  induction n using Nat.strongRecOn with
  | ind n ih =>
    by_cases hlt : n < 10
    · rw [Nat.toDigits_of_lt_base hlt]
      simp [Nat.pos_iff_ne_zero.mp hn]
    · have hquotient : 0 < n / 10 := by omega
      rw [Nat.toDigits_of_base_le (by decide) (by omega),
        List.head?_append_of_ne_nil _ Nat.toDigits_ne_nil]
      exact ih (n / 10) (by omega) hquotient

theorem isAcceptable_toDigits {n : Nat}
    (hfinite : (magnitude (Nat.toDigits 10 n)).isInfinite = false) :
    IsAcceptable (Nat.toDigits 10 n) where
  points := by
    have hnone : '.' ∉ Nat.toDigits 10 n :=
      fun h => ne_point_of_isDigit (isDigit_of_mem_toDigits h) rfl
    rw [List.count_eq_zero_of_not_mem hnone]
    omega
  digits := by
    obtain ⟨c, digits, heq⟩ := List.exists_cons_of_ne_nil (Nat.toDigits_ne_nil (n := n) (b := 10))
    exact ⟨c, heq ▸ List.mem_cons_self, isDigit_of_mem_toDigits (heq ▸ List.mem_cons_self)⟩
  finite := hfinite
  leading := by
    rcases Nat.eq_zero_or_pos n with rfl | hn
    · exact Or.inr (Or.inr (by simp))
    · exact Or.inr (Or.inl (head?_toDigits hn))

/-- The fraction's digits with the zeros that were left out are those of the steps. -/
theorem exists_fractionDigits_append {steps : Nat} (h : steps < stepsPerOne) :
    ∃ zeros, (fractionDigits steps).length + zeros = 1074 ∧
      fractionDigits steps ++ List.replicate zeros '0' =
        (Nat.toDigits 10 steps).leftpad 1074 '0' := by
  generalize hpadded : (Nat.toDigits 10 steps).leftpad 1074 '0' = padded
  have hlength : padded.length = 1074 := by
    have hshort : (Nat.toDigits 10 steps).length ≤ 1074 := by
      rw [stepsPerOne_eq_pow] at h
      exact (Nat.length_toDigits_le_iff (by decide) (by decide)).mpr h
    rw [← hpadded, List.length_leftpad]
    omega
  have hsplit : padded.rdropWhile (· == '0') ++ padded.rtakeWhile (· == '0') = padded :=
    List.rdropWhile_append_rtakeWhile
  have hzeros : padded.rtakeWhile (· == '0') =
      List.replicate (padded.rtakeWhile (· == '0')).length '0' := by
    rw [List.eq_replicate_iff]
    refine ⟨rfl, fun c hc => ?_⟩
    simpa using List.mem_rtakeWhile_imp hc
  have hdigits : fractionDigits steps = padded.rdropWhile (· == '0') := by
    rw [fractionDigits, hpadded]
    rfl
  refine ⟨(padded.rtakeWhile (· == '0')).length, ?_, ?_⟩
  · rw [hdigits, ← hlength, ← List.length_append, hsplit]
  · rw [hdigits, ← hzeros, hsplit]

theorem isDigit_of_mem_fractionDigits {steps : Nat} {c : Char} (h : c ∈ fractionDigits steps) :
    c.isDigit = true := by
  have hpadded : c ∈ (Nat.toDigits 10 steps).leftpad 1074 '0' := by
    rw [fractionDigits, List.mem_reverse] at h
    exact List.mem_reverse.mp ((List.dropWhile_sublist _).mem h)
  rw [List.leftpad, List.mem_append] at hpadded
  rcases hpadded with hzero | hdigit
  · rw [List.eq_of_mem_replicate hzero]
    rfl
  · exact isDigit_of_mem_toDigits hdigit

/-- The fraction's digits write the steps, up to the power of ten for the zeros left out. -/
theorem ofDigitChars_fractionDigits {steps : Nat} (h : steps < stepsPerOne) :
    Nat.ofDigitChars 10 (fractionDigits steps) 0 * stepsPerOne =
      steps * 10 ^ (fractionDigits steps).length := by
  obtain ⟨zeros, hlength, happend⟩ := exists_fractionDigits_append h
  have hvalue := congrArg (fun digits => Nat.ofDigitChars 10 digits 0) happend
  simp only [List.leftpad, Nat.ofDigitChars_append, Nat.ofDigitChars_replicate_zero, Nat.mul_zero,
    Nat.ofDigitChars_ten_toDigits] at hvalue
  have hone : stepsPerOne = 10 ^ (fractionDigits steps).length * 10 ^ zeros := by
    rw [← Nat.pow_add, hlength, stepsPerOne_eq_pow]
  calc Nat.ofDigitChars 10 (fractionDigits steps) 0 * stepsPerOne
      = 10 ^ zeros * Nat.ofDigitChars 10 (fractionDigits steps) 0 *
          10 ^ (fractionDigits steps).length := by rw [hone]; ring
    _ = steps * 10 ^ (fractionDigits steps).length := by rw [hvalue]

/-- The point and the digits after it, if there are any. -/
def pointed : List Char → List Char
  | [] => []
  | fraction => '.' :: fraction

theorem positional_eq (steps : Nat) :
    positional steps =
      Nat.toDigits 10 (steps / stepsPerOne) ++ pointed (fractionDigits (steps % stepsPerOne)) := by
  unfold positional
  cases fractionDigits (steps % stepsPerOne) with
  | nil => exact (List.append_nil _).symm
  | cons c fraction => rfl

section

variable {whole fraction : List Char} (hwhole : ∀ c ∈ whole, c.isDigit = true)
  (hfraction : ∀ c ∈ fraction, c.isDigit = true)

include hwhole hfraction

theorem coefficient_pointed :
    coefficient (whole ++ pointed fraction) =
      10 ^ fraction.length * Nat.ofDigitChars 10 whole 0 + Nat.ofDigitChars 10 fraction 0 := by
  have hdigits : (whole ++ pointed fraction).filter Char.isDigit = whole ++ fraction := by
    rw [List.filter_append, List.filter_eq_self.mpr hwhole]
    cases fraction with
    | nil => rfl
    | cons c fraction =>
      rw [pointed, List.filter_cons_of_neg (by decide), List.filter_eq_self.mpr hfraction]
      exact nofun
  rw [coefficient, hdigits, Nat.ofDigitChars_append, Nat.ofDigitChars_eq_ofDigitChars_zero]

omit hfraction in
theorem places_pointed : places (whole ++ pointed fraction) = fraction.length := by
  have hdrop : (whole ++ pointed fraction).dropWhile (· != '.') = pointed fraction := by
    rw [List.dropWhile_append_of_pos]
    · cases fraction <;> rfl
    · intro c hc
      simpa using ne_point_of_isDigit (hwhole c hc)
  rw [places, hdrop]
  cases fraction <;> rfl

end

/-- A positional text writes its steps: its coefficient, moved by its places, is their number. -/
theorem coefficient_positional (steps : Nat) :
    coefficient (positional steps) * stepsPerOne =
      steps * 10 ^ places (positional steps) := by
  have hrest : steps % stepsPerOne < stepsPerOne := Nat.mod_lt steps stepsPerOne_pos
  have hwhole : ∀ c ∈ Nat.toDigits 10 (steps / stepsPerOne), c.isDigit = true :=
    fun c hc => isDigit_of_mem_toDigits hc
  have hfraction : ∀ c ∈ fractionDigits (steps % stepsPerOne), c.isDigit = true :=
    fun c hc => isDigit_of_mem_fractionDigits hc
  rw [positional_eq, coefficient_pointed hwhole hfraction, places_pointed hwhole,
    Nat.ofDigitChars_ten_toDigits, Nat.add_mul, ofDigitChars_fractionDigits hrest]
  generalize 10 ^ (fractionDigits (steps % stepsPerOne)).length = scale
  calc scale * (steps / stepsPerOne) * stepsPerOne + steps % stepsPerOne * scale
      = (stepsPerOne * (steps / stepsPerOne) + steps % stepsPerOne) * scale := by ring
    _ = steps * scale := by rw [Nat.div_add_mod]

/-- A literal is read as the magnitude nearest to the steps that it writes. -/
theorem magnitude_eq_ofSteps {literal : List Char} {steps : Nat}
    (h : coefficient literal * stepsPerOne = steps * 10 ^ places literal) :
    magnitude literal = ofSteps steps := by
  have hplaces : 0 < 10 ^ places literal := Nat.pow_pos (by decide)
  have hsteps : coefficient literal * unitsPerOne * stepsPerUnit =
      steps * 10 ^ places literal := by
    rw [← h, stepsPerOne_eq]
    ring
  calc magnitude literal
      = nearest (coefficient literal * unitsPerOne * stepsPerUnit)
          (10 ^ places literal * stepsPerUnit) := (nearest_mul_right _ _ stepsPerUnit_pos).symm
    _ = nearest (steps * 10 ^ places literal) (stepsPerUnit * 10 ^ places literal) := by
        rw [hsteps, Nat.mul_comm (10 ^ places literal)]
    _ = ofSteps steps := nearest_mul_right _ _ hplaces

theorem magnitude_positional (steps : Nat) : magnitude (positional steps) = ofSteps steps :=
  magnitude_eq_ofSteps (coefficient_positional steps)

theorem isLiteralChar_of_isDigit {c : Char} (h : c.isDigit = true) : isLiteralChar c = true := by
  rw [isLiteralChar, h, Bool.true_or]

/-- An accepted literal is scanned as its number. -/
theorem lex_cut_literal {literal : List Char} (hacceptable : IsAcceptable literal)
    (hliteral : ∀ c ∈ literal, isLiteralChar c = true) :
    lex (cut literal) = .ok [.number (.number false (magnitude literal))] := by
  have hne : literal ≠ [] := by
    rintro rfl
    obtain ⟨c, hc, -⟩ := hacceptable.digits
    cases hc
  have hcut := cut_run literal [] hne hliteral nofun
  rw [List.append_nil] at hcut
  rw [hcut, lex_cons, Piece.fault?, if_pos hacceptable, Piece.token?]
  rfl

theorem isLiteralChar_of_mem_positional {steps : Nat} {c : Char} (h : c ∈ positional steps) :
    isLiteralChar c = true := by
  rw [positional_eq, List.mem_append] at h
  rcases h with hwhole | hpointed
  · exact isLiteralChar_of_isDigit (isDigit_of_mem_toDigits hwhole)
  · cases hfraction : fractionDigits (steps % stepsPerOne) with
    | nil => simp [hfraction, pointed] at hpointed
    | cons d fraction =>
      rw [hfraction, pointed, List.mem_cons] at hpointed
      rcases hpointed with rfl | hc
      · rfl
      · rw [← hfraction] at hc
        exact isLiteralChar_of_isDigit (isDigit_of_mem_fractionDigits hc)
      · exact nofun

theorem isAcceptable_positional {steps : Nat} (hfinite : (ofSteps steps).isInfinite = false) :
    IsAcceptable (positional steps) := by
  rw [← magnitude_positional] at hfinite
  rw [positional_eq] at hfinite ⊢
  cases hfraction : fractionDigits (steps % stepsPerOne) with
  | nil =>
    rw [hfraction, pointed, List.append_nil] at hfinite
    rw [pointed, List.append_nil]
    exact isAcceptable_toDigits hfinite
  | cons c fraction =>
    have hdigit : ∀ d ∈ c :: fraction, d.isDigit = true := by
      intro d hd
      rw [← hfraction] at hd
      exact isDigit_of_mem_fractionDigits hd
    refine ⟨?_, ⟨c, by simp [pointed], hdigit c List.mem_cons_self⟩, hfraction ▸ hfinite,
      Or.inl (by simp [pointed])⟩
    have hwhole : '.' ∉ Nat.toDigits 10 (steps / stepsPerOne) :=
      fun h => ne_point_of_isDigit (isDigit_of_mem_toDigits h) rfl
    have hrest : '.' ∉ c :: fraction := fun h => ne_point_of_isDigit (hdigit _ h) rfl
    rw [List.count_append, List.count_eq_zero_of_not_mem hwhole, pointed, List.count_cons_self,
      List.count_eq_zero_of_not_mem hrest]
    exact nofun

end InfixArithmetic.DecimalTexts
