import InfixArithmetic.Grammar
import InfixArithmetic.NumberText

/-!
The sign of a zero never shows. Two values are alike if they are equal or both zeros, and whatever
is computed from values that are alike is alike again: a zero divides nothing whatever its sign, and
every other operation with a zero either gives a zero again or does not depend on its sign. Alike
values are written with the same text.
-/
namespace InfixArithmetic.SignedZeros

open BinaryGrid Binary64 Grammar NumberText Tokens

def Alike (x y : Value) : Prop := x = y ∨ (x.isZero = true ∧ y.isZero = true)

theorem alike_refl (x : Value) : Alike x x := Or.inl rfl

theorem Alike.isZero_eq {x y : Value} (h : Alike x y) : x.isZero = y.isZero := by
  rcases h with rfl | ⟨hx, hy⟩
  · rfl
  · rw [hx, hy]

theorem Alike.trans {x y z : Value} (hxy : Alike x y) (hyz : Alike y z) : Alike x z := by
  rcases hxy with rfl | ⟨hx, hy⟩
  · exact hyz
  · exact Or.inr ⟨hx, hyz.isZero_eq ▸ hy⟩

theorem isZero_iff (x : Value) : x.isZero = true ↔ ∃ s, x = .number s .zero := by
  cases x with
  | nan => simp [Value.isZero]
  | number s m =>
    obtain ⟨rank, hrank⟩ := m
    simp [Value.isZero, Magnitude.isZero, Magnitude.zero]

theorem Alike.isFinite_eq {x y : Value} (h : Alike x y) : x.isFinite = y.isFinite := by
  rcases h with rfl | ⟨hx, hy⟩
  · rfl
  · obtain ⟨s, rfl⟩ := (isZero_iff x).mp hx
    obtain ⟨t, rfl⟩ := (isZero_iff y).mp hy
    rfl

theorem Alike.formatValue_eq {x y : Value} (h : Alike x y) : formatValue x = formatValue y := by
  rcases h with rfl | ⟨hx, hy⟩
  · rfl
  · obtain ⟨s, rfl⟩ := (isZero_iff x).mp hx
    obtain ⟨t, rfl⟩ := (isZero_iff y).mp hy
    rfl

theorem nearest_zero (den : Nat) : nearest 0 den = .zero := by
  have hround : roundHalfEven 0 den = 0 := by
    unfold roundHalfEven
    rw [Nat.zero_div, Nat.zero_mod, if_pos (by omega)]
  have hlog : Nat.log2 0 = 0 := by decide
  simp [nearest, hlog, hround, Magnitude.zero]

theorem units_zero : Magnitude.zero.units = 0 := rfl

theorem Alike.neg {x y : Value} (h : Alike x y) : Alike x.neg y.neg := by
  rcases h with rfl | ⟨hx, hy⟩
  · exact alike_refl _
  · obtain ⟨s, rfl⟩ := (isZero_iff x).mp hx
    obtain ⟨t, rfl⟩ := (isZero_iff y).mp hy
    exact Or.inr ⟨rfl, rfl⟩

theorem add_commutes (x y : Value) : x.add y = y.add x := by
  match x, y with
  | .nan, .nan => rfl
  | .nan, .number _ _ => rfl
  | .number _ _, .nan => rfl
  | .number s a, .number t b =>
    unfold Value.add
    cases ha : a.isInfinite <;> cases hb : b.isInfinite
    · by_cases hst : s = t
      · simp [ha, hb, hst, Nat.add_comm]
      · have hts : t ≠ s := Ne.symm hst
        rcases Nat.lt_trichotomy a.units b.units with hlt | heq | hlt
        · simp [ha, hb, hst, hts, hlt, Nat.lt_asymm hlt]
        · simp [ha, hb, hst, hts, heq]
        · simp [ha, hb, hst, hts, hlt, Nat.lt_asymm hlt]
    · simp [ha, hb]
    · simp [ha, hb]
    · obtain ⟨rank, hrank⟩ := a
      obtain ⟨rank', hrank'⟩ := b
      obtain rfl : rank = infiniteRank := by simpa [Magnitude.isInfinite] using ha
      obtain rfl : rank' = infiniteRank := by simpa [Magnitude.isInfinite] using hb
      cases s <;> cases t <;> rfl

/-- Adding a zero to a value that is not one does not depend on the sign of the zero. -/
theorem zero_add_alike (s s' : Bool) (y : Value) :
    Alike ((Value.number s .zero).add y) ((Value.number s' .zero).add y) := by
  cases y with
  | nan => exact alike_refl _
  | number t b =>
    have hfinite : Magnitude.zero.isInfinite = false := by decide
    cases hb : b.isInfinite with
    | true => simp [Value.add, hfinite, hb, Alike]
    | false =>
      have hsum : ∀ sign, (Value.number sign .zero).add (.number t b) =
          if b.units = 0 then .number (sign && t) .zero else .number t (nearest b.units 1) := by
        intro sign
        simp only [Value.add, hfinite, hb, units_zero, Nat.zero_add, Nat.sub_zero,
          Bool.false_eq_true, if_false, Nat.not_lt_zero]
        by_cases hzero : b.units = 0
        · by_cases hst : sign = t
          · simp [hzero, hst, nearest_zero]
          · have hand : (sign && t) = false := by
              cases sign <;> cases t <;> simp_all
            simp [hzero, hst, hand, Value.zero]
        · have hpos := Nat.pos_of_ne_zero hzero
          by_cases hst : sign = t
          · simp [hzero, hst]
          · simp [hzero, hst, hpos]
      rw [hsum, hsum]
      by_cases hzero : b.units = 0
      · rw [if_pos hzero, if_pos hzero]
        exact Or.inr ⟨rfl, rfl⟩
      · rw [if_neg hzero, if_neg hzero]
        exact alike_refl _

theorem Alike.add_right {x x' : Value} (h : Alike x x') (y : Value) :
    Alike (x.add y) (x'.add y) := by
  rcases h with rfl | ⟨hx, hx'⟩
  · exact alike_refl _
  · obtain ⟨s, rfl⟩ := (isZero_iff x).mp hx
    obtain ⟨s', rfl⟩ := (isZero_iff x').mp hx'
    exact zero_add_alike s s' y

theorem Alike.add {x x' y y' : Value} (hx : Alike x x') (hy : Alike y y') :
    Alike (x.add y) (x'.add y') := by
  have hleft := hx.add_right y
  have hright := hy.add_right x'
  rw [add_commutes y, add_commutes y'] at hright
  exact hleft.trans hright

theorem mul_commutes (x y : Value) : x.mul y = y.mul x := by
  match x, y with
  | .nan, .nan => rfl
  | .nan, .number _ _ => rfl
  | .number _ _, .nan => rfl
  | .number s a, .number t b =>
    have hsign : (s != t) = (t != s) := by cases s <;> cases t <;> rfl
    simp only [Value.mul, Bool.or_comm, Nat.mul_comm, hsign]

theorem zero_mul_alike (s s' : Bool) (y : Value) :
    Alike ((Value.number s .zero).mul y) ((Value.number s' .zero).mul y) := by
  cases y with
  | nan => exact alike_refl _
  | number t b =>
    have hfinite : Magnitude.zero.isInfinite = false := by decide
    have hzero : Magnitude.zero.isZero = true := rfl
    cases hb : b.isInfinite with
    | true => simp [Value.mul, hb, hzero, Alike]
    | false =>
      refine Or.inr ⟨?_, ?_⟩ <;>
        simp [Value.mul, hb, hfinite, units_zero, nearest_zero, Value.isZero, hzero]

theorem Alike.mul_right {x x' : Value} (h : Alike x x') (y : Value) :
    Alike (x.mul y) (x'.mul y) := by
  rcases h with rfl | ⟨hx, hx'⟩
  · exact alike_refl _
  · obtain ⟨s, rfl⟩ := (isZero_iff x).mp hx
    obtain ⟨s', rfl⟩ := (isZero_iff x').mp hx'
    exact zero_mul_alike s s' y

theorem Alike.mul {x x' y y' : Value} (hx : Alike x x') (hy : Alike y y') :
    Alike (x.mul y) (x'.mul y') := by
  have hleft := hx.mul_right y
  have hright := hy.mul_right x'
  rw [mul_commutes y, mul_commutes y'] at hright
  exact hleft.trans hright

theorem zero_div_alike (s s' : Bool) {y : Value} (hy : y.isZero = false) :
    Alike ((Value.number s .zero).div y) ((Value.number s' .zero).div y) := by
  cases y with
  | nan => exact alike_refl _
  | number t b =>
    have hfinite : Magnitude.zero.isInfinite = false := by decide
    have hzero : Magnitude.zero.isZero = true := rfl
    have hb : b.isZero = false := hy
    cases hinfinite : b.isInfinite <;> refine Or.inr ⟨?_, ?_⟩ <;>
      simp [Value.div, hfinite, hinfinite, hb, units_zero, nearest_zero, Value.isZero, hzero]

theorem Alike.div_right {x x' : Value} (h : Alike x x') {y : Value} (hy : y.isZero = false) :
    Alike (x.div y) (x'.div y) := by
  rcases h with rfl | ⟨hx, hx'⟩
  · exact alike_refl _
  · obtain ⟨s, rfl⟩ := (isZero_iff x).mp hx
    obtain ⟨s', rfl⟩ := (isZero_iff x').mp hx'
    exact zero_div_alike s s' hy

/-- Operands that are alike have results that are alike, or none of them has a result. -/
theorem result?_alike (operation : Operation) {l l' r r' : Value} (hl : Alike l l')
    (hr : Alike r r') :
    (result? operation l r = none ∧ result? operation l' r' = none) ∨
    ∃ x y, result? operation l r = some x ∧ result? operation l' r' = some y ∧ Alike x y := by
  cases operation with
  | add => exact Or.inr ⟨_, _, rfl, rfl, hl.add hr⟩
  | subtract => exact Or.inr ⟨_, _, rfl, rfl, hl.add hr.neg⟩
  | multiply => exact Or.inr ⟨_, _, rfl, rfl, hl.mul hr⟩
  | divide =>
    unfold result?
    rcases hr with rfl | ⟨hr, hr'⟩
    · cases hr : r.isZero with
      | true => exact Or.inl ⟨rfl, rfl⟩
      | false => exact Or.inr ⟨_, _, rfl, rfl, hl.div_right hr⟩
    · simp [hr, hr']

end InfixArithmetic.SignedZeros
