import InfixArithmetic.Proofs.PrintedValues
import InfixArithmetic.Sessions

/-!
No control character of a line finds its way into the reply. A reply is empty, or the thanks, or one
line that holds a numeral or a message. Two messages repeat a part of the line: a literal, which is
made of digits and points, and a foreign character, which is quoted by its escape if it is a control
character.
-/
namespace InfixArithmetic.PlainReplies

open Binary64 BlankText CharacterClasses DecimalLiterals DecimalTexts Evaluation Faults MaximalMunch
  NumberText PrintedValues QuotedCharacters Scanning Screening Sessions SignedZeros Tokens
  UnprintedCharacters

/-- The control characters of ASCII and of the 32 code points after it. -/
def IsControl (c : Char) : Prop := c.toNat < 0x20 ∨ (0x7f ≤ c.toNat ∧ c.toNat < 0xa0)

instance (c : Char) : Decidable (IsControl c) :=
  inferInstanceAs (Decidable (c.toNat < 0x20 ∨ (0x7f ≤ c.toNat ∧ c.toNat < 0xa0)))

theorem not_isControl_of_isLiteralChar {c : Char} (h : isLiteralChar c = true) :
    ¬ IsControl c := by
  have hrange := toNat_of_isLiteralChar h
  unfold IsControl
  omega

theorem isUnprinted_of_isControl {c : Char} (h : IsControl c) : isUnprinted c = true := by
  have hranges : inRanges unprintedRanges c = true := by
    unfold inRanges
    rw [List.any_eq_true]
    rcases h with hlow | ⟨hlow, hhigh⟩
    · refine ⟨(0x0, 0x1f), List.mem_cons_self, ?_⟩
      simp
      omega
    · refine ⟨(0x7f, 0xa0), List.mem_cons_of_mem _ List.mem_cons_self, ?_⟩
      simp
      omega
  rw [isUnprinted, hranges, Bool.true_or]

theorem exists_digitChar_of_mem_toDigits {n : Nat} {c : Char} (h : c ∈ Nat.toDigits 16 n) :
    ∃ digit < 16, c = Nat.digitChar digit := by
  induction n using Nat.strongRecOn with
  | ind n ih =>
    by_cases hlt : n < 16
    · rw [Nat.toDigits_of_lt_base hlt, List.mem_singleton] at h
      exact ⟨n, hlt, h⟩
    · rw [Nat.toDigits_of_base_le (by decide) (by omega), List.mem_append, List.mem_singleton] at h
      rcases h with hfirst | hlast
      · exact ih (n / 16) (by omega) hfirst
      · exact ⟨n % 16, by omega, hlast⟩

/-- A control character that is not blank is the null character or written by its code point. -/
theorem escaped_of_isControl {c : Char} (h : IsControl c) (hblank : isBlank c = false) :
    escaped c = ['\\', '0'] ∨
      escaped c = ['\\', 'u', '\x7b'] ++ Nat.toDigits 16 c.toNat ++ ['\x7d'] := by
  unfold escaped
  cases hshort : shortEscape? c with
  | none =>
    rw [if_pos (isUnprinted_of_isControl h)]
    exact Or.inr rfl
  | some letter =>
    unfold shortEscape? at hshort
    split at hshort
    · cases hshort
      exact Or.inl rfl
    · cases hblank
    · cases hblank
    · cases hblank
    · exact absurd h (by decide)
    · exact absurd h (by decide)
    · cases hshort

/-- The characters that escapes are written with. -/
def escapeAlphabet : List Char := "\\'0123456789abcdefnrtu\x7b\x7d".toList

/-- A printed character stands for itself unless it has a short escape. -/
theorem escaped_cases (c : Char) :
    (escaped c = [c] ∧ isUnprinted c = false) ∨ ∀ x ∈ escaped c, x ∈ escapeAlphabet := by
  unfold escaped
  cases hshort : shortEscape? c with
  | some letter =>
    have hletter : letter ∈ escapeAlphabet := by
      unfold shortEscape? at hshort
      split at hshort <;> cases hshort <;> decide
    refine Or.inr fun x hx => ?_
    rcases List.mem_pair.mp hx with rfl | rfl
    · decide
    · exact hletter
  | none =>
    dsimp only
    by_cases hprinted : isUnprinted c = true
    · have hdigits : ∀ digit < 16, Nat.digitChar digit ∈ escapeAlphabet := by decide
      rw [if_pos hprinted]
      refine Or.inr fun x hx => ?_
      simp only [List.mem_append, List.mem_cons, List.not_mem_nil, or_false] at hx
      rcases hx with ((rfl | rfl | rfl) | hdigit) | rfl
      · decide
      · decide
      · decide
      · obtain ⟨digit, hlt, rfl⟩ := exists_digitChar_of_mem_toDigits hdigit
        exact hdigits digit hlt
      · decide
    · rw [if_neg hprinted]
      exact Or.inl ⟨rfl, Bool.eq_false_iff.mpr hprinted⟩

theorem not_isControl_of_mem_escaped {c x : Char} (h : x ∈ escaped c) : ¬ IsControl x := by
  rcases escaped_cases c with ⟨hself, hprinted⟩ | halphabet
  · rw [hself, List.mem_singleton] at h
    intro hcontrol
    rw [h] at hcontrol
    rw [isUnprinted_of_isControl hcontrol] at hprinted
    cases hprinted
  · have hplain : escapeAlphabet.all (¬ IsControl ·) = true := by decide
    simpa using List.all_eq_true.mp hplain x (halphabet x h)

/-- A text without control characters, so in particular without line ends. -/
def IsPlain (text : String) : Prop := ∀ c ∈ text.toList, ¬ IsControl c

instance (text : String) : Decidable (IsPlain text) :=
  decidable_of_iff (text.toList.all (¬ IsControl ·) = true) (by simp [IsPlain])

theorem IsPlain.append {left right : String} (hl : IsPlain left) (hr : IsPlain right) :
    IsPlain (left ++ right) := by
  intro c hc
  rw [String.toList_append, List.mem_append] at hc
  rcases hc with hc | hc
  · exact hl c hc
  · exact hr c hc

theorem isPlain_quote (c : Char) : IsPlain (quote c) := by
  intro x hx
  rw [quote, String.toList_ofList] at hx
  simp only [List.mem_append, List.mem_cons, List.not_mem_nil, or_false] at hx
  rcases hx with (rfl | hx) | rfl
  · decide
  · exact not_isControl_of_mem_escaped hx
  · decide

/-- A message is plain if the literal that it may repeat is made of digits and points. -/
theorem isPlain_message {fault : EvaluationFault}
    (h : ∀ literal, fault = .invalidNumber literal →
      ∀ c ∈ literal.toList, isLiteralChar c = true) : IsPlain fault.message := by
  have hmalformed : IsPlain "Invalid mathematical expression: " := by decide
  cases fault with
  | emptyExpression => decide
  | foreignCharacter c => exact .append (by decide +kernel) (isPlain_quote c)
  | invalidNumber literal =>
    have hliteral : IsPlain literal :=
      fun c hc => not_isControl_of_isLiteralChar (h literal rfl c hc)
    exact hmalformed.append (.append (by decide) hliteral)
  | ungrammatical fault =>
    have hreason : IsPlain fault.reason := by cases fault <;> decide
    exact hmalformed.append hreason
  | divisionByZero => decide
  | outOfRange => decide

/-- A decimal numeral: digits, before them a minus or nothing, after them a point and digits or
nothing. -/
def IsNumeral (text : List Char) : Prop :=
  ∃ minus whole places, text = minus ++ (whole ++ pointed places) ∧
    (minus = [] ∨ minus = ['-']) ∧ whole ≠ [] ∧ (∀ c ∈ whole, c.isDigit = true) ∧
    ∀ c ∈ places, c.isDigit = true

theorem isNumeral_formatValue {value : Value} (h : value.isFinite = true) :
    IsNumeral (formatValue value).toList := by
  by_cases hzero : value.isZero = true
  · rw [formatValue_of_isZero hzero]
    exact ⟨[], ['0'], [], rfl, Or.inl rfl, by decide, List.forall_mem_singleton.mpr rfl, nofun⟩
  · cases value with
    | nan => cases h
    | number s m =>
      have hfinite : m.isInfinite = false := by simpa [Value.isFinite] using h
      rw [toList_formatValue (Bool.eq_false_iff.mpr hzero) hfinite, positional_eq]
      refine ⟨_, _, _, rfl, ?_, Nat.toDigits_ne_nil, fun c hc => isDigit_of_mem_toDigits hc,
        fun c hc => isDigit_of_mem_fractionDigits hc⟩
      cases s with
      | false => exact Or.inl rfl
      | true => exact Or.inr rfl

theorem IsNumeral.char {text : List Char} {c : Char} (h : IsNumeral text) (hc : c ∈ text) :
    c = '-' ∨ isLiteralChar c = true := by
  obtain ⟨minus, whole, places, rfl, hminus, -, hwhole, hplaces⟩ := h
  rw [List.mem_append, List.mem_append] at hc
  rcases hc with hc | hc | hc
  · rcases hminus with rfl | rfl
    · cases hc
    · exact Or.inl (List.mem_singleton.mp hc)
  · exact Or.inr (isLiteralChar_of_isDigit (hwhole c hc))
  · refine Or.inr ?_
    cases places with
    | nil => cases hc
    | cons d places =>
      rcases List.mem_cons.mp hc with rfl | hc
      · rfl
      · exact isLiteralChar_of_isDigit (hplaces c hc)

theorem isPlain_formatValue {value : Value} (h : value.isFinite = true) :
    IsPlain (formatValue value) := by
  intro c hc
  rcases (isNumeral_formatValue h).char hc with rfl | hliteral
  · decide
  · exact not_isControl_of_isLiteralChar hliteral

/-- The line that reports an outcome, without its end. -/
def report : Except EvaluationFault Value → String
  | .ok value => "Result: " ++ formatValue value
  | .error fault => "Error: " ++ fault.message

theorem answerLine_eq_report (text : String) :
    answerLine text = report (evaluate text) ++ "\n" := by
  unfold answerLine report
  cases evaluate text <;> rfl

/-- The literal that a message repeats is a run of digits and points. -/
theorem literal_of_evaluate {text literal : String}
    (h : evaluate text = .error (.invalidNumber literal)) :
    literal ≠ "" ∧ ∀ c ∈ literal.toList, isLiteralChar c = true := by
  obtain ⟨before, run, after, rfl, -, hmax⟩ := fault_of_evaluate h
  rw [String.toList_ofList]
  exact ⟨by simpa using hmax.ne_nil, hmax.literal⟩

theorem isForeign_of_evaluate {text : String} {c : Char}
    (h : evaluate text = .error (.foreignCharacter c)) : IsForeign c := by
  obtain ⟨before, after, -, hforeign, -⟩ := fault_of_evaluate h
  exact hforeign

theorem isPlain_report (text : String) : IsPlain (report (evaluate text)) := by
  cases houtcome : evaluate text with
  | ok value =>
    have hresult : IsPlain "Result: " := by decide
    exact hresult.append (isPlain_formatValue (isFinite_of_evaluate houtcome))
  | error fault =>
    have herror : IsPlain "Error: " := by decide
    refine herror.append (isPlain_message fun literal hliteral => ?_)
    rw [hliteral] at houtcome
    exact (literal_of_evaluate houtcome).2

theorem quote_of_isControl {c : Char} (h : IsControl c) (hblank : isBlank c = false) :
    quote c = "'\\0'" ∨
      quote c = "'\\u\x7b" ++ String.ofList (Nat.toDigits 16 c.toNat) ++ "\x7d'" := by
  unfold quote
  rcases escaped_of_isControl h hblank with hescaped | hescaped
  · rw [hescaped]
    exact Or.inl rfl
  · rw [hescaped]
    refine Or.inr ?_
    rw [← String.toList_inj]
    simp

theorem suffix_toList_append (lead text : String) : text.toList <:+ (lead ++ text).toList := by
  rw [String.toList_append]
  exact List.suffix_append _ _

/-- The message for a foreign character ends in its quote. -/
theorem quote_suffix_message (c : Char) :
    (quote c).toList <:+ (EvaluationFault.foreignCharacter c).message.toList :=
  suffix_toList_append _ (quote c)

theorem literal_suffix_message (literal : String) :
    literal.toList <:+ (EvaluationFault.invalidNumber literal).message.toList :=
  (suffix_toList_append "invalid number " literal).trans (suffix_toList_append _ _)

/-- Whatever characters a line has, its reply is empty, or the thanks, or one line without control
characters. That line reports a decimal numeral or a message. A message that ends in a literal has
digits and points there, and one that ends in a foreign character quotes it, which is not blank and
stands by its escape if it is a control character. -/
theorem reply_is_plain_line (line : String) :
    match classify line with
    | .blank => (reply line).output = ""
    | .exit => (reply line).output = thanks
    | .expression text =>
      ∃ body, (reply line).output = body ++ "\n" ∧ IsPlain body ∧
        match evaluate text with
        | .ok value =>
          body = "Result: " ++ formatValue value ∧ IsNumeral (formatValue value).toList
        | .error fault =>
          body = "Error: " ++ fault.message ∧
            match fault with
            | .invalidNumber literal =>
              literal.toList <:+ fault.message.toList ∧
                literal ≠ "" ∧ ∀ c ∈ literal.toList, isLiteralChar c = true
            | .foreignCharacter c =>
              (quote c).toList <:+ fault.message.toList ∧ isBlank c = false ∧
                (IsControl c → quote c = "'\\0'" ∨
                  quote c = "'\\u\x7b" ++ String.ofList (Nat.toDigits 16 c.toNat) ++ "\x7d'")
            | _ => True := by
  cases hline : classify line with
  | blank => simp [reply, hline]
  | exit => simp [reply, hline]
  | expression text =>
    have houtput : (reply line).output = report (evaluate text) ++ "\n" := by
      rw [reply, hline, ← answerLine_eq_report]
    refine ⟨report (evaluate text), houtput, isPlain_report text, ?_⟩
    cases houtcome : evaluate text with
    | ok value => exact ⟨rfl, isNumeral_formatValue (isFinite_of_evaluate houtcome)⟩
    | error fault =>
      refine ⟨rfl, ?_⟩
      cases fault with
      | invalidNumber literal =>
        exact ⟨literal_suffix_message literal, literal_of_evaluate houtcome⟩
      | foreignCharacter c =>
        have hblank := ((isForeign_iff c).mp (isForeign_of_evaluate houtcome)).2.2
        exact ⟨quote_suffix_message c, hblank,
          fun hcontrol => quote_of_isControl hcontrol hblank⟩
      | emptyExpression => trivial
      | ungrammatical fault => trivial
      | divisionByZero => trivial
      | outOfRange => trivial

/-- An escape character in a line, which would start a control sequence, is named by its escape. -/
theorem reply_is_plain_line_escape :
    ∃ body, (reply " 7\x1b[31m ").output = body ++ "\n" ∧ IsPlain body ∧
      body = "Error: " ++ (EvaluationFault.foreignCharacter '\x1b').message ∧
      (quote '\x1b').toList <:+ (EvaluationFault.foreignCharacter '\x1b').message.toList ∧
      quote '\x1b' = "'\\u\x7b1b\x7d'" := by
  have hline : classify " 7\x1b[31m " = .expression "7\x1b[31m" := by decide +kernel
  have houtcome : evaluate "7\x1b[31m" = .error (.foreignCharacter '\x1b') := by decide +kernel
  have hreply := reply_is_plain_line " 7\x1b[31m "
  simp only [hline, houtcome] at hreply
  obtain ⟨body, houtput, hplain, hbody, hends, -, hquote⟩ := hreply
  refine ⟨body, houtput, hplain, hbody, hends, ?_⟩
  rcases hquote (by decide) with h | h
  · exact absurd h (by decide +kernel)
  · rw [h]
    decide +kernel

end InfixArithmetic.PlainReplies
