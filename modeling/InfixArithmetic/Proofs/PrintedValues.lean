import InfixArithmetic.Proofs.DecimalSpacings
import InfixArithmetic.Proofs.ReadingSentences
import InfixArithmetic.Proofs.SignedZeros

/-!
Printed values are expressions. The steps that the search for the shortest decimal ends with are
rounded to the magnitude it began with, so the text of a finite value is a literal of that magnitude
or a minus before one, and evaluating it gives the value back. Only a negative zero loses its sign.
-/
namespace InfixArithmetic.PrintedValues

open BinaryGrid Binary64 DecimalLiterals DecimalSpacings DecimalTexts Derivations Evaluation Faults
  MaximalMunch NumberText ReadingSentences Rounding Screening Sentences ShortestDecimals SignedZeros
  Tokens

/-- The digits of a finite magnitude are a literal of that magnitude. -/
theorem lex_cut_positional {m : Magnitude} (hfinite : m.isInfinite = false) :
    lex (cut (positional (shortestSteps m))) = .ok [.number (.number false m)] := by
  have hsteps := ofSteps_shortestSteps m
  have hmagnitude := magnitude_positional (shortestSteps m)
  rw [hsteps] at hmagnitude
  have hlex := lex_cut_literal (isAcceptable_positional (hsteps.symm ▸ hfinite))
    fun c hc => isLiteralChar_of_mem_positional hc
  rw [hmagnitude] at hlex
  exact hlex

/-- An operand as an expression. -/
def sumOf (operand : Derivation .unary) : Derivation .sum := .chain (.chain operand .stop) .stop

theorem evaluate_operand {text : String} (operand : Derivation .unary) {value : Value}
    (hlex : lex (cut text.toList) = .ok operand.tokens) (hdepth : operand.depth ≤ 1)
    (hvalue : strictValue? operand.tree = some value) (hfinite : value.isFinite = true) :
    evaluate text = .ok value := by
  have htokens : (sumOf operand).tokens = operand.tokens := by
    change operand.tokens ++ [] ++ [] = operand.tokens
    rw [List.append_nil, List.append_nil]
  have hdepth' : (sumOf operand).depth ≤ Grammar.maxDepth := by
    change max (max operand.depth 0) 0 ≤ 256
    omega
  rw [evaluate_eq_strictOutcome (htokens ▸ hlex) hdepth']
  change strictOutcome operand.tree = _
  rw [strictOutcome, hvalue]
  simp only [hfinite, if_true]

theorem toList_signed (negative : Bool) (digits : List Char) :
    (if negative then "-" ++ String.ofList digits else String.ofList digits).toList =
      (if negative then ['-'] else []) ++ digits := by
  have hminus : "-".toList = ['-'] := rfl
  cases negative with
  | false =>
    simp only [Bool.false_eq_true, if_false, String.toList_ofList, List.nil_append]
  | true =>
    simp only [if_true, String.toList_append, String.toList_ofList, hminus]

theorem formatValue_eq {s : Bool} {m : Magnitude} (hzero : m.isZero = false)
    (hfinite : m.isInfinite = false) :
    formatValue (.number s m) =
      if s then "-" ++ String.ofList (positional (shortestSteps m))
      else String.ofList (positional (shortestSteps m)) := by
  unfold formatValue
  simp only [hzero, hfinite, Bool.false_eq_true, if_false]

theorem toList_formatValue {s : Bool} {m : Magnitude} (hzero : m.isZero = false)
    (hfinite : m.isInfinite = false) :
    (formatValue (.number s m)).toList =
      (if s then ['-'] else []) ++ positional (shortestSteps m) := by
  rw [formatValue_eq hzero hfinite, toList_signed]

theorem formatValue_of_isZero {value : Value} (h : value.isZero = true) :
    formatValue value = "0" := by
  obtain ⟨s, rfl⟩ := (isZero_iff value).mp h
  rfl

theorem evaluate_zero : evaluate "0" = .ok .zero := by decide +kernel

/-- A literal, or a minus and a literal, is evaluated to the magnitude of the literal with the sign
that the minus gives it. -/
theorem evaluate_signed {text : String} {s : Bool} {digits : List Char} {m : Magnitude}
    (htext : text.toList = (if s then ['-'] else []) ++ digits)
    (hdigits : lex (cut digits) = .ok [.number (.number false m)])
    (hfinite : m.isInfinite = false) : evaluate text = .ok (.number s m) := by
  have hvalue : (Value.number s m).isFinite = true := by
    rw [Value.isFinite, hfinite, Bool.not_false]
  cases s with
  | false =>
    rw [if_neg Bool.false_ne_true, List.nil_append] at htext
    have hlex : lex (cut text.toList) = .ok [.number (.number false m)] := by rw [htext, hdigits]
    exact evaluate_operand (.plain (.number (.number false m))) hlex (Nat.zero_le 1) rfl hvalue
  | true =>
    rw [if_pos rfl, List.singleton_append] at htext
    have hminus : symbol? '-' = some (.operator .subtract) := rfl
    have hlex : lex (cut text.toList) =
        .ok [.symbol (.operator .subtract), .number (.number false m)] := by
      rw [htext, lex_cut_symbol_cons hminus hdigits]
    exact evaluate_operand (.minus (.plain (.number (.number false m)))) hlex (Nat.le_refl 1) rfl
      hvalue

theorem evaluate_formatValue_of_ne_zero {s : Bool} {m : Magnitude} (hzero : m.isZero = false)
    (hfinite : m.isInfinite = false) : evaluate (formatValue (.number s m)) = .ok (.number s m) :=
  evaluate_signed (toList_formatValue hzero hfinite) (lex_cut_positional hfinite) hfinite

/-- Evaluating the text of a finite value gives that value, and a zero without its sign. -/
theorem evaluate_formatValue_eq {value : Value} (hfinite : value.isFinite = true) :
    evaluate (formatValue value) = .ok (if value.isZero then .zero else value) := by
  by_cases hzero : value.isZero = true
  · rw [formatValue_of_isZero hzero, if_pos hzero]
    exact evaluate_zero
  · rw [if_neg hzero]
    cases value with
    | nan => cases hfinite
    | number s m =>
      have hm : m.isInfinite = false := by simpa [Value.isFinite] using hfinite
      exact evaluate_formatValue_of_ne_zero (Bool.eq_false_iff.mpr hzero) hm

theorem isFinite_of_evaluateTokens {tokens : List Token} {value : Value}
    (h : evaluateTokens tokens = .ok value) : value.isFinite = true := by
  unfold evaluateTokens at h
  split at h
  · cases h
  · split at h
    · cases h
    · split at h
      · rename_i hfinite
        cases h
        exact hfinite
      · cases h

theorem isFinite_of_evaluate {text : String} {value : Value} (h : evaluate text = .ok value) :
    value.isFinite = true := by
  unfold evaluate at h
  split at h
  · cases h
  · unfold compute at h
    split at h
    · cases h
    · exact isFinite_of_evaluateTokens h

/-- A value is finite only if its pattern is below those of the value that is not a number. -/
theorem ofBits_of_isFinite {bits : UInt64} (h : (Value.ofBits bits).isFinite = true) :
    ∃ hrank : bits.toNat % Value.signBit ≤ infiniteRank,
      Value.ofBits bits =
        .number (decide (Value.signBit ≤ bits.toNat)) ⟨bits.toNat % Value.signBit, hrank⟩ := by
  by_cases hrank : bits.toNat % Value.signBit ≤ infiniteRank
  · exact ⟨hrank, dif_pos hrank⟩
  · have hnan : Value.ofBits bits = .nan := dif_neg hrank
    rw [hnan] at h
    cases h

theorem toBits_ofBits {bits : UInt64} (h : (Value.ofBits bits).isFinite = true) :
    (Value.ofBits bits).toBits = bits := by
  obtain ⟨hrank, hvalue⟩ := ofBits_of_isFinite h
  have hlt : bits.toNat < 2 ^ 64 := bits.toNat_lt
  have hsign : Value.signBit = 2 ^ 63 := rfl
  have hpattern : (if decide (Value.signBit ≤ bits.toNat) = true then
      Value.signBit + bits.toNat % Value.signBit else bits.toNat % Value.signBit) =
        bits.toNat := by
    rw [hsign]
    split
    · rename_i hnegative
      have hle := of_decide_eq_true hnegative
      omega
    · rename_i hpositive
      have hgt := of_decide_eq_false (Bool.eq_false_iff.mpr hpositive)
      omega
  rw [hvalue, Value.toBits, hpattern, UInt64.ofNat_toNat]

/-- The pattern of the negative zero, which has no other bit than the highest. -/
def negativeZero : UInt64 := 0x8000000000000000

theorem isZero_ofBits {bits : UInt64} (h : (Value.ofBits bits).isFinite = true) :
    (Value.ofBits bits).isZero = true ↔ bits = 0 ∨ bits = negativeZero := by
  obtain ⟨hrank, hvalue⟩ := ofBits_of_isFinite h
  have hlt : bits.toNat < 2 ^ 64 := bits.toNat_lt
  have hzero : (0 : UInt64).toNat = 0 := rfl
  have hnegative : negativeZero.toNat = 2 ^ 63 := rfl
  have hsign : Value.signBit = 2 ^ 63 := rfl
  rw [hvalue, Value.isZero, Magnitude.isZero, beq_iff_eq, ← UInt64.toNat_inj, ← UInt64.toNat_inj,
    hzero, hnegative]
  change bits.toNat % Value.signBit = 0 ↔ _
  rw [hsign]
  omega

theorem map_toBits_evaluate_formatValue {bits : UInt64}
    (h : (Value.ofBits bits).isFinite = true) :
    (evaluate (formatValue (.ofBits bits))).map Value.toBits =
      .ok (if bits = negativeZero then 0 else bits) := by
  rw [evaluate_formatValue_eq h]
  by_cases hzero : (Value.ofBits bits).isZero = true
  · rw [if_pos hzero]
    rcases (isZero_ofBits h).mp hzero with rfl | rfl <;> rfl
  · have hne : bits ≠ negativeZero := fun heq => hzero ((isZero_ofBits h).mpr (Or.inr heq))
    rw [if_neg hzero, if_neg hne, Except.map, toBits_ofBits h]

theorem alike_of_formatValue_eq {x y : Value} (hx : x.isFinite = true) (hy : y.isFinite = true)
    (h : formatValue x = formatValue y) : Alike x y := by
  have hleft := evaluate_formatValue_eq hx
  have hright := evaluate_formatValue_eq hy
  rw [h, hright] at hleft
  have hvalues := Except.ok.inj hleft
  by_cases hzero : x.isZero = true <;> by_cases hzero' : y.isZero = true
  · exact Or.inr ⟨hzero, hzero'⟩
  · rw [if_pos hzero, if_neg hzero'] at hvalues
    exact absurd (hvalues ▸ rfl) hzero'
  · rw [if_neg hzero, if_pos hzero'] at hvalues
    exact absurd (hvalues ▸ rfl) hzero
  · rw [if_neg hzero, if_neg hzero'] at hvalues
    exact Or.inl hvalues.symm

/-- Printed results are expressions that read back exactly. The text of a finite value is evaluated
to the value with the same pattern, except that a negative zero gives the positive one. Answers are
finite, so the text of an answer has an answer that is printed alike, and two finite values share a
text only if they are equal or both zeros. -/
theorem printed_values_read_back :
    (∀ bits : UInt64, (Value.ofBits bits).isFinite = true →
      (evaluate (formatValue (.ofBits bits))).map Value.toBits =
        .ok (if bits = negativeZero then 0 else bits)) ∧
    (∀ value : Value, value.isFinite = true →
      evaluate (formatValue value) = .ok (if value.isZero then .zero else value)) ∧
    (∀ (text : String) (value : Value), evaluate text = .ok value →
      ∃ again, evaluate (formatValue value) = .ok again ∧ formatValue again = formatValue value) ∧
    ∀ x y : Value, x.isFinite = true → y.isFinite = true → formatValue x = formatValue y →
      x = y ∨ (x.isZero = true ∧ y.isZero = true) := by
  refine ⟨fun bits h => map_toBits_evaluate_formatValue h,
    fun value h => evaluate_formatValue_eq h, ?_,
    fun x y hx hy h => alike_of_formatValue_eq hx hy h⟩
  intro text value h
  refine ⟨_, evaluate_formatValue_eq (isFinite_of_evaluate h), ?_⟩
  by_cases hzero : value.isZero = true
  · rw [if_pos hzero]
    have halike : Alike .zero value := Or.inr ⟨rfl, hzero⟩
    exact halike.formatValue_eq
  · rw [if_neg hzero]

/-- The largest value, whose text has 309 digits, the negative one next to zero, whose text has 324
places, and the negative zero. -/
theorem extreme_values_read_back :
    (evaluate (formatValue (.ofBits 0x7fefffffffffffff))).map Value.toBits =
      .ok 0x7fefffffffffffff ∧
    (evaluate (formatValue (.ofBits 0x8000000000000001))).map Value.toBits =
      .ok 0x8000000000000001 ∧
    (evaluate (formatValue (.ofBits negativeZero))).map Value.toBits = .ok 0 :=
  ⟨printed_values_read_back.1 _ (by decide), printed_values_read_back.1 _ (by decide),
    printed_values_read_back.1 _ (by decide)⟩

end InfixArithmetic.PrintedValues
