import InfixArithmetic.Proofs.CallDepth

/-!
A division by zero leaves its mark on everything computed from it. What stands in for its quotient
is not a number, no operation on that gives a number again, and it is no zero divisor either. So the
value of anything that holds such a division is not a number, and an evaluation that forgot to look
at the record would still refuse it, though for another reason.
-/
namespace InfixArithmetic.RecordedDivisions

open Binary64 CallDepth Derivations Evaluation Faults FollowedRules Grammar Procedures
  ReadingSentences RuleEquations Sentences Tokens

theorem arithmetic_nan_left (operation : Operation) (y : Value) :
    arithmetic operation .nan y = .nan := by
  cases operation <;> rfl

theorem arithmetic_nan_right (operation : Operation) (x : Value) :
    arithmetic operation x .nan = .nan := by
  cases operation <;> cases x <;> rfl

/-- An operation on what is not a number has no other result. -/
theorem eq_nan_of_result? {operation : Operation} {x y value : Value} (hnan : x = .nan ∨ y = .nan)
    (h : result? operation x y = some value) : value = .nan := by
  rw [result?_eq] at h
  split at h
  · cases h
  · rw [← Option.some.inj h]
    rcases hnan with rfl | rfl
    · exact arithmetic_nan_left operation y
    · exact arithmetic_nan_right operation x

/-- A reading with a division by zero on record has no number as its value. -/
def Marked (reading : Reading) : Prop := reading.dividesByZero = true → reading.value = .nan

theorem Marked.negate {reading : Reading} (h : Marked reading) : Marked reading.negate := by
  intro hflag
  change reading.value.neg = .nan
  rw [h hflag]
  rfl

theorem Marked.combine {left right : Reading} (operation : Operation) (hleft : Marked left)
    (hright : Marked right) : Marked (left.combine operation right) := by
  unfold Reading.combine
  split
  · rename_i value hresult
    intro hflag
    rcases (Bool.or_eq_true _ _).mp hflag with hflag | hflag
    · exact eq_nan_of_result? (Or.inl (hleft hflag)) hresult
    · exact eq_nan_of_result? (Or.inr (hright hflag)) hresult
  · exact fun _ => rfl

/-- Whatever the rule reads is marked. -/
def Marks (rule : Rule) : Prop := ∀ tokens reading, rule.read tokens = .ok reading → Marked reading

theorem chainFrom_marked {binds : Operation → Bool} {operand : Rule} (hoperand : Marks operand)
    {left reading : Reading} (h : chainFrom binds operand left = .ok reading)
    (hleft : Marked left) : Marked reading := by
  fun_induction chainFrom binds operand left with
  | case1 => cases h
  | case2 left operation tokens hrest hbinds right hread ih =>
    exact ih h (hleft.combine operation (hoperand tokens right hread))
  | case3 =>
    cases h
    exact hleft
  | case4 =>
    cases h
    exact hleft

theorem chain_marks (binds : Operation → Bool) {operand : Rule} (hoperand : Marks operand) :
    Marks (chain binds operand) := by
  intro tokens reading h
  obtain ⟨first, hfirst, hchain⟩ := chain_read_eq_ok h
  exact chainFrom_marked hoperand hchain (hoperand tokens first hfirst)

theorem expression_marks {operand : Rule} (hoperand : Marks operand) : Marks (expression operand) :=
  chain_marks _ (chain_marks _ hoperand)

theorem primary_marks {inner : Option Rule}
    (hinner : ∀ operand, inner = some operand → Marks operand) : Marks (primary inner) := by
  intro tokens reading h
  rcases primary_read_eq_ok h with ⟨value, rest, -, rfl⟩ |
    ⟨operand, rest, enclosed, hoperand, -, hread, -, heq⟩
  · exact nofun
  · rw [heq]
    exact expression_marks (hinner operand hoperand) rest enclosed hread

theorem signed_marks {inner : Option Rule}
    (hinner : ∀ operand, inner = some operand → Marks operand) : Marks (signed inner) := by
  intro tokens reading h
  rcases signed_read_eq_ok h with ⟨operand, rest, positive, hoperand, -, hread, rfl⟩ | hprimary
  · exact (hinner operand hoperand rest positive hread).negate
  · exact primary_marks hinner tokens reading hprimary

theorem operand_marks (levels : Nat) : Marks (operand levels) := by
  induction levels with
  | zero => exact signed_marks nofun
  | succ levels ih =>
    apply signed_marks
    rintro operand ⟨⟩
    exact ih

theorem innerOperand?_marks (levels : Nat) :
    ∀ operand, innerOperand? levels = some operand → Marks operand := by
  cases levels with
  | zero => exact nofun
  | succ levels =>
    rintro operand ⟨⟩
    exact operand_marks levels

theorem ruleOf_marks (levels : Nat) (category : Category) : Marks (ruleOf levels category) := by
  match category with
  | .chain .additive => exact expression_marks (operand_marks levels)
  | .chain .multiplicative => exact chain_marks _ (operand_marks levels)
  | .unary => exact operand_marks levels
  | .primary => exact primary_marks (innerOperand?_marks levels)

/-- A procedure that carried out a division by zero has no number to hand back, whatever the record
said when it was called. -/
theorem eq_nan_of_recordedSince {calls : Nat} {category : Category} {cursor after : Cursor}
    {value : Value}
    (hcall : (procedure calls (.rule category)).call cursor = some ⟨.ok value, after⟩)
    (hrecorded : cursor.recordedSince after = true) : value = .nan := by
  have hread := (procedure_follows calls (.rule category) _ cursor rfl _ hcall).of_ok
  exact ruleOf_marks _ category _ _ hread hrecorded

theorem readAll_marked {tokens : List Token} {reading : Reading}
    (h : readAll tokens = .ok reading) : Marked reading := by
  unfold readAll at h
  split at h
  · cases h
  · rename_i first hread
    split at h
    · rw [← Except.ok.inj h]
      exact ruleOf_marks maxDepth .sum tokens first hread
    · cases h
    · cases h

/-- Evaluation without a look at the record. -/
def evaluateUnchecked (tokens : List Token) : Except EvaluationFault Value :=
  match readAll tokens with
  | .error fault => .error (.ungrammatical fault)
  | .ok reading => if reading.value.isFinite then .ok reading.value else .error .outOfRange

theorem evaluateUnchecked_eq (tokens : List Token) :
    evaluateUnchecked tokens =
      if evaluateTokens tokens = .error .divisionByZero then .error .outOfRange
      else evaluateTokens tokens := by
  unfold evaluateUnchecked evaluateTokens
  cases hread : readAll tokens with
  | error fault => simp
  | ok reading =>
    cases hflag : reading.dividesByZero with
    | true => simp [readAll_marked hread hflag, Value.isFinite, hflag]
    | false => cases hfinite : reading.value.isFinite <;> simp [hflag, hfinite]

/-- No rule that reads a division by zero, and no call in which one was carried out, has a number as
its value, and as a divisor that value is not taken for zero. At the end of the tokens a record of
one goes with a value that is not a number. Without the check of the record such tokens would be out
of range, and no others would have another outcome. -/
theorem recorded_divisions_are_nan :
    (∀ levels category tokens reading, (ruleOf levels category).read tokens = .ok reading →
      reading.dividesByZero = true → reading.value = .nan) ∧
    (∀ calls category cursor value after,
      (procedure calls (.rule category)).call cursor = some ⟨.ok value, after⟩ →
      cursor.recordedSince after = true →
        value = .nan ∧ ∀ left, (Application.mk left .divide value).dividesByZero = false) ∧
    (∀ calls tokens value after,
      (procedure calls (.rule .sum)).call (.start tokens) = some ⟨.ok value, after⟩ →
      after.dividesByZero = true → value = .nan) ∧
    ∀ tokens, evaluateUnchecked tokens =
      if evaluateTokens tokens = .error .divisionByZero then .error .outOfRange
      else evaluateTokens tokens := by
  refine ⟨ruleOf_marks, fun calls category cursor value after hcall hrecorded => ?_,
    fun calls tokens value after hcall hflag => ?_, evaluateUnchecked_eq⟩
  · obtain rfl := eq_nan_of_recordedSince hcall hrecorded
    exact ⟨rfl, fun left => rfl⟩
  · have hkeeps := Procedure.keeps _ _ _ hcall
    apply eq_nan_of_recordedSince hcall
    rw [← hflag, hkeeps.dividesByZero]
    exact (Bool.false_or _).symm

/-- The tokens of (0/0)*0. -/
def markedProduct : List Token :=
  [.symbol .opening, .number .zero, .symbol (.operator .divide), .number .zero, .symbol .closing,
    .symbol (.operator .multiply), .number .zero]

/-- They are read as a product where a division by zero is on record already, and from the start. -/
theorem recorded_divisions_are_nan_product :
    (∃ reading, (ruleOf maxDepth .product).read markedProduct = .ok reading ∧
      reading.dividesByZero = true ∧ reading.value = .nan) ∧
    (∃ value after,
      (procedure callLimit (.rule .product)).call ⟨markedProduct, 0, 7, true, []⟩ =
        some ⟨.ok value, after⟩ ∧
      Cursor.recordedSince ⟨markedProduct, 0, 7, true, []⟩ after = true ∧ value = .nan) ∧
    (∃ value after,
      (procedure callLimit (.rule .sum)).call (.start markedProduct) = some ⟨.ok value, after⟩ ∧
      after.dividesByZero = true ∧ value = .nan) ∧
    evaluateUnchecked markedProduct = .error .outOfRange := by
  obtain ⟨hreadings, hcalls, hruns, hunchecked⟩ := recorded_divisions_are_nan
  have hread : ((ruleOf maxDepth .product).read markedProduct).map Reading.dividesByZero =
      .ok true := by decide +kernel
  have hcall : (procedure callLimit (.rule .product)).call ⟨markedProduct, 0, 7, true, []⟩ =
      some ⟨.ok .nan, ⟨markedProduct, 7, 7, true,
        [⟨.zero, .divide, .zero⟩, ⟨.nan, .multiply, .zero⟩]⟩⟩ := by decide +kernel
  have hrun : (procedure callLimit (.rule .sum)).call (.start markedProduct) =
      some ⟨.ok .nan, ⟨markedProduct, 7, 0, true,
        [⟨.zero, .divide, .zero⟩, ⟨.nan, .multiply, .zero⟩]⟩⟩ := by decide +kernel
  have houtcome : evaluateTokens markedProduct = .error .divisionByZero := by decide +kernel
  refine ⟨?_, ⟨_, _, hcall, by decide, ?_⟩, ⟨_, _, hrun, by decide, ?_⟩, ?_⟩
  · cases hreading : (ruleOf maxDepth .product).read markedProduct with
    | error fault =>
      rw [hreading] at hread
      cases hread
    | ok reading =>
      rw [hreading] at hread
      have hflag : reading.dividesByZero = true := Except.ok.inj hread
      exact ⟨reading, rfl, hflag, hreadings _ _ _ _ hreading hflag⟩
  · exact (hcalls callLimit .product _ _ _ hcall (by decide)).1
  · exact hruns callLimit markedProduct _ _ hrun (by decide)
  · rw [hunchecked, if_pos houtcome]

end InfixArithmetic.RecordedDivisions
