import Mathlib.Data.List.TakeWhile
import InfixArithmetic.Proofs.MaximalMunch
import InfixArithmetic.Proofs.NearestMagnitudes

/-!
Which literals are numbers, and which number each of them is. The decimal that a literal writes is
an exact rational number however long the literal is. The scanner takes a literal with one point at
most, some digit and no idle leading zero unless this number is too large to be rounded to a finite
magnitude, and its value is then the positive one nearest to it. Any other literal is refused with
its whole text.
-/
namespace InfixArithmetic.NumberLiterals

open BinaryGrid Binary64 DecimalLiterals Faults MaximalMunch NearestMagnitudes Scanning Tokens

def beforePoint (literal : List Char) : List Char := literal.takeWhile (· != '.')

/-- What follows the first point, if there is one. -/
def afterPoint (literal : List Char) : List Char := (literal.dropWhile (· != '.')).drop 1

/-- The decimal that a literal writes: the whole number before the point, and after it digits each
of which weighs a tenth of the one before. -/
def exactValue (literal : List Char) : ℚ :=
  Nat.ofDigitChars 10 (beforePoint literal) 0 +
    Nat.ofDigitChars 10 (afterPoint literal) 0 / 10 ^ (afterPoint literal).length

/-- The literals that are numbers. A zero that is followed by other digits may begin a literal only
if there is a point. -/
structure IsReadable (literal : List Char) : Prop where
  points : literal.count '.' ≤ 1
  digits : ∃ c ∈ literal, c.isDigit = true
  leading : ¬ ('.' ∉ literal ∧ literal.head? = some '0' ∧ ∃ c ∈ literal, c ≠ '0')
  bounded : exactValue literal < overflowBound

section

variable {literal : List Char} (hliteral : ∀ c ∈ literal, isLiteralChar c = true)

include hliteral

theorem isDigit_of_ne_point {c : Char} (hc : c ∈ literal) (hne : c ≠ '.') : c.isDigit = true := by
  have hclass := hliteral c hc
  rw [isLiteralChar, Bool.or_eq_true, beq_iff_eq] at hclass
  exact hclass.resolve_right hne

theorem filter_isDigit_beforePoint :
    (beforePoint literal).filter Char.isDigit = beforePoint literal := by
  rw [List.filter_eq_self]
  intro c hc
  have hne : c ≠ '.' := by simpa using List.mem_takeWhile_imp hc
  exact isDigit_of_ne_point hliteral ((List.takeWhile_sublist _).mem hc) hne

/-- From the point on, everything but the point is a digit. -/
theorem filter_isDigit_dropWhile (hpoints : literal.count '.' ≤ 1) :
    (literal.dropWhile (· != '.')).filter Char.isDigit = afterPoint literal := by
  unfold afterPoint
  cases hdrop : literal.dropWhile (· != '.') with
  | nil => rfl
  | cons c rest =>
    have hhead := List.head?_dropWhile_not (· != '.') literal
    rw [hdrop] at hhead
    obtain rfl : c = '.' := by simpa using hhead
    have hsublist := List.dropWhile_sublist (· != '.') (l := literal)
    rw [hdrop] at hsublist
    have hcount := hsublist.count_le '.'
    rw [List.count_cons_self] at hcount
    have hnone : '.' ∉ rest := List.count_eq_zero.mp (by omega)
    rw [List.filter_cons_of_neg (by decide), List.drop_one, List.tail_cons, List.filter_eq_self]
    intro d hd
    have hne : d ≠ '.' := fun heq => hnone (heq ▸ hd)
    exact isDigit_of_ne_point hliteral (hsublist.mem (List.mem_cons_of_mem _ hd)) hne

theorem coefficient_eq (hpoints : literal.count '.' ≤ 1) :
    coefficient literal =
      10 ^ (afterPoint literal).length * Nat.ofDigitChars 10 (beforePoint literal) 0 +
        Nat.ofDigitChars 10 (afterPoint literal) 0 := by
  have hsplit : beforePoint literal ++ literal.dropWhile (· != '.') = literal :=
    List.takeWhile_append_dropWhile
  have hdigits : literal.filter Char.isDigit = beforePoint literal ++ afterPoint literal := by
    conv_lhs => rw [← hsplit]
    rw [List.filter_append, filter_isDigit_beforePoint hliteral,
      filter_isDigit_dropWhile hliteral hpoints]
  rw [coefficient, hdigits, Nat.ofDigitChars_append, Nat.ofDigitChars_eq_ofDigitChars_zero]

/-- The decimal is the coefficient moved by the places after the point. -/
theorem exactValue_eq (hpoints : literal.count '.' ≤ 1) :
    exactValue literal = coefficient literal / 10 ^ places literal := by
  have hplaces : places literal = (afterPoint literal).length := by
    rw [places, afterPoint, List.length_drop]
  have hscale : (10 : ℚ) ^ (afterPoint literal).length ≠ 0 := by positivity
  rw [exactValue, hplaces, coefficient_eq hliteral hpoints]
  push_cast
  rw [add_div, mul_div_cancel_left₀ _ hscale]

theorem isNearest_magnitude (hpoints : literal.count '.' ≤ 1) :
    IsNearest (exactValue literal) (magnitude literal) := by
  have hnearest : IsNearest ((coefficient literal * unitsPerOne : Nat) /
      ((10 ^ places literal : Nat) * unitsPerOne)) (magnitude literal) :=
    isNearest_nearest (Nat.pow_pos (by decide))
  rw [Nat.cast_mul, mul_div_mul_right _ _ unitsPerOne_cast_pos.ne', Nat.cast_pow, Nat.cast_ofNat,
    ← exactValue_eq hliteral hpoints] at hnearest
  exact hnearest

theorem isReadable_iff : IsReadable literal ↔ IsAcceptable literal := by
  have hleading : ¬ ('.' ∉ literal ∧ literal.head? = some '0' ∧ ∃ c ∈ literal, c ≠ '0') ↔
      '.' ∈ literal ∨ literal.head? ≠ some '0' ∨ ∀ c ∈ literal, c = '0' := by
    simp only [not_and_or, not_exists, ne_eq, not_not, imp_iff_not_or]
  have hfinite : literal.count '.' ≤ 1 →
      (exactValue literal < overflowBound ↔ (magnitude literal).isInfinite = false) := by
    intro hpoints
    rw [← not_le, ← (isNearest_magnitude hliteral hpoints).isInfinite_iff, Bool.not_eq_true]
  constructor
  · intro h
    exact ⟨h.points, h.digits, (hfinite h.points).mp h.bounded, hleading.mp h.leading⟩
  · intro h
    exact ⟨h.points, h.digits, hleading.mpr h.leading, (hfinite h.points).mpr h.finite⟩

end

/-- Ending the text after a literal gives a number exactly if the literal is readable, and then the
value without sign whose magnitude is nearest to the decimal. Otherwise the whole literal is
reported. -/
theorem finish_inNumber (literal : String)
    (hliteral : ∀ c ∈ literal.toList, isLiteralChar c = true) :
    ((∃ value, (Scanner.inNumber literal).finish.answer = .ok (some (.number value))) ↔
      IsReadable literal.toList) ∧
    (∀ value, (Scanner.inNumber literal).finish.answer = .ok (some (.number value)) →
      ∃ m, value = .number false m ∧ m.isInfinite = false ∧
        IsNearest (exactValue literal.toList) m) ∧
    (¬ IsReadable literal.toList →
      (Scanner.inNumber literal).finish.answer = .error (.invalidNumber literal)) := by
  have hvalue := value?_eq literal.toList hliteral
  have hiff := isReadable_iff hliteral
  by_cases hacceptable : IsAcceptable literal.toList
  · have hanswer : (Scanner.inNumber literal).finish.answer =
        .ok (some (.number (.number false (magnitude literal.toList)))) := by
      rw [Scanner.finish, Scanner.held, hvalue, if_pos hacceptable]
    refine ⟨⟨fun _ => hiff.mpr hacceptable, fun _ => ⟨_, hanswer⟩⟩, ?_,
      fun hnot => absurd (hiff.mpr hacceptable) hnot⟩
    intro value h
    rw [hanswer] at h
    cases h
    exact ⟨_, rfl, hacceptable.finite, isNearest_magnitude hliteral hacceptable.points⟩
  · have hanswer : (Scanner.inNumber literal).finish.answer = .error (.invalidNumber literal) := by
      rw [Scanner.finish, Scanner.held, hvalue, if_neg hacceptable]
    refine ⟨⟨?_, fun h => absurd (hiff.mp h) hacceptable⟩, ?_, fun _ => hanswer⟩
    · rintro ⟨value, h⟩
      rw [hanswer] at h
      cases h
    · intro value h
      rw [hanswer] at h
      cases h

/-- Halfway between 2^53 and the value after it the even rank decides, and the digits after the
point make no difference. -/
theorem finish_inNumber_halfway :
    (∀ c ∈ "09007199254740993.0".toList, isLiteralChar c = true) ∧
    IsReadable "09007199254740993.0".toList ∧
    ∃ m, Value.ofBits 0x4340000000000000 = .number false m ∧ m.isInfinite = false ∧
      IsNearest (exactValue "09007199254740993.0".toList) m := by
  have hliteral : ∀ c ∈ "09007199254740993.0".toList, isLiteralChar c = true :=
    List.all_eq_true.mp (by decide)
  have hanswer : (Scanner.inNumber "09007199254740993.0").finish.answer =
      .ok (some (.number (.ofBits 0x4340000000000000))) := by decide +kernel
  obtain ⟨hreadable, hnearest, -⟩ := finish_inNumber "09007199254740993.0" hliteral
  exact ⟨hliteral, hreadable.mp ⟨_, hanswer⟩, hnearest _ hanswer⟩

end InfixArithmetic.NumberLiterals
