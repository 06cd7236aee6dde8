import InfixArithmetic.Evaluation
import Mathlib.Data.List.DropRight
import Mathlib.Tactic.IntervalCases

/-!
Every character is a literal character, a symbol, blank, or foreign to expressions, and these
classes are disjoint. Screening lists the characters that it lets pass while the scanner tries one
class after the other, but both refuse the same characters. Trimming takes away blank characters at
both ends and stops at the first that is not blank.
-/
namespace InfixArithmetic.CharacterClasses

open BlankText DecimalLiterals Evaluation Faults Scanning Tokens

theorem toNat_of_isBlank {c : Char} (h : isBlank c = true) : c.toNat ≤ 32 ∨ 133 ≤ c.toNat := by
  simp [isBlank, inRanges, blankRanges] at h
  omega

theorem toNat_of_isDigit {c : Char} (h : c.isDigit = true) : 48 ≤ c.toNat ∧ c.toNat ≤ 57 :=
  Char.isDigit_iff_toNat.mp h

theorem toNat_of_isLiteralChar {c : Char} (h : isLiteralChar c = true) :
    46 ≤ c.toNat ∧ c.toNat ≤ 57 := by
  simp only [isLiteralChar, Bool.or_eq_true, beq_iff_eq] at h
  rcases h with hdigit | rfl
  · have hrange := toNat_of_isDigit hdigit
    omega
  · decide

theorem toNat_of_symbol? {c : Char} (h : symbol? c ≠ none) : 40 ≤ c.toNat ∧ c.toNat ≤ 47 := by
  unfold symbol? at h
  split at h <;> first | decide | exact absurd rfl h

theorem isLiteralChar_of_isBlank {c : Char} (h : isBlank c = true) : isLiteralChar c = false := by
  cases hliteral : isLiteralChar c with
  | false => rfl
  | true =>
    have hblank := toNat_of_isBlank h
    have hrange := toNat_of_isLiteralChar hliteral
    omega

theorem isLiteralChar_of_symbol? {c : Char} {symbol : Symbol} (h : symbol? c = some symbol) :
    isLiteralChar c = false := by
  unfold symbol? at h
  split at h <;> first | rfl | cases h

theorem symbol?_of_isBlank {c : Char} (h : isBlank c = true) : symbol? c = none := by
  by_contra hsymbol
  have hblank := toNat_of_isBlank h
  have hrange := toNat_of_symbol? hsymbol
  omega

theorem mem_alphabet_of_isLiteralChar {c : Char} (h : isLiteralChar c = true) : c ∈ alphabet := by
  simp only [isLiteralChar, Bool.or_eq_true, beq_iff_eq] at h
  rcases h with hdigit | rfl
  · obtain ⟨hlow, hhigh⟩ := toNat_of_isDigit hdigit
    rw [← Char.ofNat_toNat c]
    generalize c.toNat = n at hlow hhigh ⊢
    interval_cases n <;> decide
  · decide

theorem mem_alphabet_of_symbol? {c : Char} (h : symbol? c ≠ none) : c ∈ alphabet := by
  unfold symbol? at h
  split at h <;> first | decide | exact absurd rfl h

theorem mem_alphabet_iff (c : Char) :
    c ∈ alphabet ↔ isLiteralChar c = true ∨ symbol? c ≠ none := by
  constructor
  · intro h
    have hall : alphabet.all (fun x => isLiteralChar x || (symbol? x).isSome) = true := by decide
    have hc := List.all_eq_true.mp hall c h
    rw [Bool.or_eq_true, Option.isSome_iff_ne_none] at hc
    exact hc
  · rintro (hliteral | hsymbol)
    · exact mem_alphabet_of_isLiteralChar hliteral
    · exact mem_alphabet_of_symbol? hsymbol

/-- The scanner has no rule for the character. -/
def IsForeign (c : Char) : Prop :=
  (Scanner.idle.feed c).answer = .error (.unexpectedCharacter c)

theorem isForeign_iff (c : Char) :
    IsForeign c ↔ isLiteralChar c = false ∧ symbol? c = none ∧ isBlank c = false := by
  unfold IsForeign
  simp only [Scanner.feed, Scanner.replace, Scanner.held, Scanner.starting]
  cases isLiteralChar c <;> cases symbol? c <;> cases isBlank c <;> simp

/-- Screening refuses exactly the characters that the scanner has no rule for. -/
theorem isForeign_iff_not_isAllowed (c : Char) : IsForeign c ↔ isAllowed c = false := by
  rw [isForeign_iff, isAllowed, Bool.or_eq_false_iff, List.contains_eq_mem, decide_eq_false_iff_not,
    mem_alphabet_iff]
  simp only [not_or, Bool.not_eq_true, ne_eq, not_not, and_assoc]

/-- What is left of a text between blank characters at its ends. -/
structure IsTrimmed (text kept : List Char) : Prop where
  split : ∃ lead trail, text = lead ++ kept ++ trail ∧ (∀ c ∈ lead, isBlank c = true) ∧
    ∀ c ∈ trail, isBlank c = true
  head : ∀ c ∈ kept.head?, isBlank c = false
  last : ∀ c ∈ kept.getLast?, isBlank c = false

theorem trim_eq (text : List Char) : trim text = (text.dropWhile isBlank).rdropWhile isBlank := rfl

theorem isTrimmed_trim (text : List Char) : IsTrimmed text (trim text) where
  split := by
    refine ⟨text.takeWhile isBlank, (text.dropWhile isBlank).rtakeWhile isBlank, ?_,
      fun c hc => List.mem_takeWhile_imp hc, fun c hc => List.mem_rtakeWhile_imp hc⟩
    rw [trim_eq, List.append_assoc, List.rdropWhile_append_rtakeWhile,
      List.takeWhile_append_dropWhile]
  head := by
    intro c hc
    obtain ⟨trail, htrail⟩ := List.rdropWhile_prefix isBlank (text.dropWhile isBlank)
    have hdrop : (text.dropWhile isBlank).head? = some c := by
      rw [← htrail, List.head?_append, ← trim_eq, Option.mem_def.mp hc, Option.some_or]
    have hnot := List.head?_dropWhile_not isBlank text
    rwa [hdrop] at hnot
  last := by
    intro c hc
    obtain ⟨hne, hlast⟩ := List.mem_getLast?_eq_getLast hc
    rw [hlast]
    exact Bool.eq_false_iff.mpr (List.rdropWhile_last_not isBlank _ hne)

theorem trim_eq_self {text : List Char} (hhead : ∀ c ∈ text.head?, isBlank c = false)
    (hlast : ∀ c ∈ text.getLast?, isBlank c = false) : trim text = text := by
  have hdrop : text.dropWhile isBlank = text := by
    cases text with
    | nil => rfl
    | cons c rest => exact List.dropWhile_cons_of_neg (by simp [hhead c rfl])
  rw [trim_eq, hdrop]
  apply List.rdropWhile_eq_self_iff.mpr
  intro hne
  rw [hlast _ (List.getLast_mem_getLast? hne)]
  exact Bool.false_ne_true

end InfixArithmetic.CharacterClasses
