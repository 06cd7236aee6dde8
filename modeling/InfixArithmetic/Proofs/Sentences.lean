import InfixArithmetic.Proofs.Derivations
import InfixArithmetic.Proofs.PendingOpeners

/-!
Tokens have an answer exactly when they are a sentence of the grammar that is not nested too deeply,
and the answer is that of strict evaluation of its tree. Reading goes on after a division by zero
where strict evaluation gives up, but the record that it keeps makes the difference unobservable.
-/
namespace InfixArithmetic.Sentences

open Binary64 Derivations Evaluation Faults Grammar PendingOpeners RuleEquations Tokens

/-- The arithmetic that an operation stands for. -/
def arithmetic : Operation → Value → Value → Value
  | .add => Value.add
  | .subtract => Value.sub
  | .multiply => Value.mul
  | .divide => Value.div

/-- The operands from left to right and then the operation, given up at the first division whose
right operand is a zero of either sign. -/
def strictValue? : Tree → Option Value
  | .number value => some value
  | .negation operand =>
    match strictValue? operand with
    | none => none
    | some x => some x.neg
  | .operation operation left right =>
    match strictValue? left with
    | none => none
    | some x =>
      match strictValue? right with
      | none => none
      | some y =>
        if operation = .divide ∧ y.isZero = true then none else some (arithmetic operation x y)

/-- What strict evaluation of a tree answers. -/
def strictOutcome (tree : Tree) : Except EvaluationFault Value :=
  match strictValue? tree with
  | none => .error .divisionByZero
  | some value => if value.isFinite then .ok value else .error .outOfRange

/-- A reading agrees with strict evaluation: it records a division by zero if that gives up, and has
the same value if not. -/
def Computes (reading : Reading) (tree : Tree) : Prop :=
  strictValue? tree = if reading.dividesByZero then none else some reading.value

theorem result?_eq (operation : Operation) (x y : Value) :
    result? operation x y =
      if operation = .divide ∧ y.isZero = true then none else some (arithmetic operation x y) := by
  cases operation <;> simp [result?, arithmetic]

theorem negate_computes {reading : Reading} {tree : Tree} (h : Computes reading tree) :
    Computes reading.negate (.negation tree) := by
  unfold Computes at h ⊢
  rw [strictValue?, h]
  cases hflag : reading.dividesByZero <;> simp [Reading.negate, hflag]

theorem combine_computes {left right : Reading} {l r : Tree} (operation : Operation)
    (hl : Computes left l) (hr : Computes right r) :
    Computes (left.combine operation right) (.operation operation l r) := by
  unfold Computes at hl hr ⊢
  rw [strictValue?, hl, hr, Reading.combine, result?_eq]
  by_cases hzero : operation = .divide ∧ right.value.isZero = true
  · cases left.dividesByZero <;> cases right.dividesByZero <;> simp [hzero]
  · cases left.dividesByZero <;> cases right.dividesByZero <;> simp [hzero]

/-- Whatever the rule reads has a derivation in the category, nested no deeper than there are
levels, whose tree the reading computes. -/
def Derives (rule : Rule) (c : Category) (levels : Nat) : Prop :=
  ∀ tokens reading, rule.read tokens = .ok reading →
    ∃ d : Derivation c, tokens = d.tokens ++ reading.rest ∧ d.depth ≤ levels ∧
      Computes reading d.tree

variable {p : Precedence} {levels : Nat}

theorem chainFrom_derives {operand : Rule} (hoperand : Derives operand p.operand levels)
    {left reading : Reading} (h : chainFrom p.joins operand left = .ok reading) (l : Tree)
    (hl : Computes left l) :
    ∃ more : Continuation p, left.rest = more.tokens ++ reading.rest ∧ more.depth ≤ levels ∧
      Computes reading (more.treeAfter l) := by
  fun_induction chainFrom p.joins operand left generalizing l with
  | case1 => cases h
  | case2 left operation tokens hrest hbinds right hread ih =>
    obtain ⟨d, htokens, hdepth, hright⟩ := hoperand tokens right hread
    obtain ⟨more, hmore, hmoreDepth, hreading⟩ :=
      ih h (.operation operation l d.tree) (combine_computes operation hl hright)
    rw [Reading.combine_rest] at hmore
    refine ⟨.next operation hbinds d more, ?_, Nat.max_le.mpr ⟨hdepth, hmoreDepth⟩, hreading⟩
    rw [hrest, htokens, hmore]
    simp only [Continuation.tokens, List.cons_append, List.append_assoc]
  | case3 =>
    cases h
    exact ⟨.stop, rfl, Nat.zero_le levels, hl⟩
  | case4 =>
    cases h
    exact ⟨.stop, rfl, Nat.zero_le levels, hl⟩

theorem chain_derives {operand : Rule} (hoperand : Derives operand p.operand levels) :
    Derives (chain p.joins operand) (.chain p) levels := by
  intro tokens reading h
  obtain ⟨first, hfirst, hchain⟩ := chain_read_eq_ok h
  obtain ⟨d, htokens, hdepth, hvalue⟩ := hoperand tokens first hfirst
  obtain ⟨more, hmore, hmoreDepth, hreading⟩ :=
    chainFrom_derives hoperand hchain d.tree hvalue
  refine ⟨.chain d more, ?_, Nat.max_le.mpr ⟨hdepth, hmoreDepth⟩, hreading⟩
  rw [htokens, hmore, Derivation.tokens, List.append_assoc]

theorem expression_derives {operand : Rule} (hoperand : Derives operand .unary levels) :
    Derives (expression operand) .sum levels :=
  chain_derives (p := .additive) (chain_derives (p := .multiplicative) hoperand)

theorem primary_derives {inner : Option Rule}
    (hinner : ∀ operand, inner = some operand → ∃ m < levels, Derives operand .unary m) :
    Derives (primary inner) .primary levels := by
  intro tokens reading h
  rcases primary_read_eq_ok h with ⟨value, rest, rfl, rfl⟩ |
    ⟨operand, rest, enclosed, hoperand, rfl, hread, hrest, heq⟩
  · exact ⟨.number value, rfl, Nat.zero_le levels, rfl⟩
  · obtain ⟨m, hm, hderives⟩ := hinner operand hoperand
    obtain ⟨d, htokens, hdepth, hvalue⟩ := expression_derives hderives rest enclosed hread
    refine ⟨.parentheses d, ?_, ?_, ?_⟩
    · rw [htokens, hrest]
      simp [Derivation.tokens]
    · exact Nat.le_trans (Nat.succ_le_succ hdepth) hm
    · rw [heq]
      exact hvalue

theorem signed_derives {inner : Option Rule}
    (hinner : ∀ operand, inner = some operand → ∃ m < levels, Derives operand .unary m) :
    Derives (signed inner) .unary levels := by
  intro tokens reading h
  rcases signed_read_eq_ok h with ⟨operand, rest, positive, hoperand, rfl, hread, rfl⟩ | hprimary
  · obtain ⟨m, hm, hderives⟩ := hinner operand hoperand
    obtain ⟨d, htokens, hdepth, hvalue⟩ := hderives rest positive hread
    refine ⟨.minus d, ?_, ?_, negate_computes hvalue⟩
    · rw [htokens]
      rfl
    · exact Nat.le_trans (Nat.succ_le_succ hdepth) hm
  · obtain ⟨d, htokens, hdepth, hvalue⟩ := primary_derives hinner tokens reading hprimary
    exact ⟨.plain d, htokens, hdepth, hvalue⟩

theorem operand_derives (levels : Nat) : Derives (operand levels) .unary levels := by
  induction levels with
  | zero => exact signed_derives nofun
  | succ levels ih =>
    apply signed_derives
    intro operand hoperand
    cases hoperand
    exact ⟨levels, Nat.lt_succ_self levels, ih⟩

theorem readAll_derives {tokens : List Token} {reading : Reading}
    (h : readAll tokens = .ok reading) :
    ∃ d : Derivation .sum, d.tokens = tokens ∧ d.depth ≤ maxDepth ∧ Computes reading d.tree := by
  unfold readAll at h
  split at h
  · cases h
  · rename_i reading' hread
    split at h
    · rename_i hrest
      cases h
      obtain ⟨d, htokens, hdepth, hvalue⟩ :=
        expression_derives (operand_derives maxDepth) tokens reading hread
      rw [hrest, List.append_nil] at htokens
      exact ⟨d, htokens.symm, hdepth, hvalue⟩
    · cases h
    · cases h

/-- Every sentence has a first token, which is not a closing parenthesis. -/
theorem tokens_head? : ∀ {c : Category} (d : Derivation c) (rest : List Token),
    (d.tokens ++ rest).head? ≠ some (.symbol .closing)
  | _, .chain first more, rest => by
    rw [Derivation.tokens, List.append_assoc]
    exact tokens_head? first (more.tokens ++ rest)
  | _, .minus _, _ => nofun
  | _, .plain operand, rest => tokens_head? operand rest
  | _, .number _, _ => nofun
  | _, .parentheses _, _ => nofun

theorem push_eq_ok (opener : Opener) {openers : List Opener} (h : openers.length < maxDepth) :
    push opener openers = .ok ⟨.beforeOperand, opener :: openers⟩ := if_pos h

mutual

/-- The pass over the tokens takes a sentence of any category as it takes an operand. -/
theorem run_derivation : ∀ {c : Category} (d : Derivation c) (openers : List Opener)
    (rest : List Token), d.depth + openers.length ≤ maxDepth →
    (∀ p, c = .chain p → dropMinuses openers = openers) →
    (State.mk .beforeOperand openers).run (d.tokens ++ rest) =
      (State.mk .afterOperand (dropMinuses openers)).run rest
  | _, .chain (p := p) first more, openers, rest, hdepth, hclear => by
    have hopeners := hclear p rfl
    have hfirst : first.depth + openers.length ≤ maxDepth :=
      Nat.le_trans (Nat.add_le_add_right (Nat.le_max_left _ _) _) hdepth
    have hmore : more.depth + openers.length ≤ maxDepth :=
      Nat.le_trans (Nat.add_le_add_right (Nat.le_max_right _ _) _) hdepth
    rw [Derivation.tokens, List.append_assoc,
      run_derivation first openers _ hfirst (fun _ _ => hopeners), hopeners,
      run_continuation more openers rest hmore hopeners]
  | _, .minus operand, openers, rest, hdepth, _ => by
    rw [Derivation.depth] at hdepth
    rw [Derivation.tokens, List.cons_append, run_minus, push_eq_ok .minus (by omega)]
    exact run_derivation operand (.minus :: openers) rest
      (by simp only [List.length_cons]; omega) nofun
  | _, .plain operand, openers, rest, hdepth, _ => run_derivation operand openers rest hdepth nofun
  | _, .number _, _, _, _, _ => rfl
  | _, .parentheses enclosed, openers, rest, hdepth, _ => by
    rw [Derivation.depth] at hdepth
    rw [Derivation.tokens, List.cons_append, List.append_assoc,
      run_opening openers _ (tokens_head? enclosed _), push_eq_ok .parenthesis (by omega)]
    change (State.mk .beforeOperand (.parenthesis :: openers)).run _ = _
    rw [run_derivation enclosed (.parenthesis :: openers) _
      (by simp only [List.length_cons]; omega) (fun _ _ => rfl)]
    rfl

theorem run_continuation : ∀ {p : Precedence} (more : Continuation p) (openers : List Opener)
    (rest : List Token), more.depth + openers.length ≤ maxDepth → dropMinuses openers = openers →
    (State.mk .afterOperand openers).run (more.tokens ++ rest) =
      (State.mk .afterOperand openers).run rest
  | _, .stop, _, _, _, _ => rfl
  | _, .next _ _ right more, openers, rest, hdepth, hclear => by
    have hright : right.depth + openers.length ≤ maxDepth :=
      Nat.le_trans (Nat.add_le_add_right (Nat.le_max_left _ _) _) hdepth
    have hmore : more.depth + openers.length ≤ maxDepth :=
      Nat.le_trans (Nat.add_le_add_right (Nat.le_max_right _ _) _) hdepth
    rw [Continuation.tokens, List.cons_append, List.append_assoc]
    change (State.mk .beforeOperand openers).run _ = _
    rw [run_derivation right openers _ hright (fun _ _ => hclear), hclear,
      run_continuation more openers rest hmore hclear]

end

theorem readAll_of_derivation (d : Derivation .sum) (hdepth : d.depth ≤ maxDepth) :
    ∃ reading, readAll d.tokens = .ok reading := by
  have hrun := run_derivation d [] [] hdepth (fun _ _ => rfl)
  rw [List.append_nil] at hrun
  have hread : (readAll d.tokens).bind (fun _ => .ok ()) = .ok () := by
    rw [← run_initial]
    exact hrun
  obtain ⟨reading, hreading, -⟩ := bind_eq_ok hread
  exact ⟨reading, hreading⟩

theorem evaluateTokens_eq_strictOutcome {tokens : List Token} {reading : Reading} {tree : Tree}
    (h : readAll tokens = .ok reading) (hvalue : Computes reading tree) :
    evaluateTokens tokens = strictOutcome tree := by
  unfold Computes at hvalue
  rw [strictOutcome, hvalue]
  simp only [evaluateTokens, h]
  cases reading.dividesByZero <;> rfl

/-- Tokens have an answer exactly if they have a derivation within the levels. They have no other
derivation, and the answer is that of strict evaluation of its tree. -/
theorem evaluateTokens_isAnswer_iff_derivation (tokens : List Token) :
    (IsAnswer (evaluateTokens tokens) ↔
      ∃ d : Derivation .sum, d.tokens = tokens ∧ d.depth ≤ maxDepth) ∧
    ∀ d : Derivation .sum, d.tokens = tokens → d.depth ≤ maxDepth →
      (∀ d' : Derivation .sum, d'.tokens = tokens → d' = d) ∧
      evaluateTokens tokens = strictOutcome d.tree := by
  refine ⟨⟨fun hanswer => ?_, ?_⟩, ?_⟩
  · cases hread : readAll tokens with
    | error fault =>
      rw [evaluateTokens_of_readAll_error hread] at hanswer
      simp [IsAnswer] at hanswer
    | ok reading =>
      obtain ⟨d, htokens, hdepth, -⟩ := readAll_derives hread
      exact ⟨d, htokens, hdepth⟩
  · rintro ⟨d, rfl, hdepth⟩
    obtain ⟨reading, hread⟩ := readAll_of_derivation d hdepth
    exact isAnswer_of_readAll_ok hread
  · rintro d rfl hdepth
    refine ⟨fun d' htokens => d'.eq_of_tokens_eq d htokens, ?_⟩
    obtain ⟨reading, hread⟩ := readAll_of_derivation d hdepth
    obtain ⟨d', htokens, -, hvalue⟩ := readAll_derives hread
    obtain rfl := d'.eq_of_tokens_eq d htokens
    exact evaluateTokens_eq_strictOutcome hread hvalue

/-- The quotient of a negated zero and a zero, whose derivation nests one level. -/
def zeroOverZero : Derivation .sum :=
  .chain (.chain (.minus (.plain (.number .zero)))
    (.next .divide rfl (.plain (.number .zero)) .stop)) .stop

theorem evaluateTokens_zeroOverZero :
    zeroOverZero.depth ≤ maxDepth ∧ evaluateTokens zeroOverZero.tokens = .error .divisionByZero :=
  ⟨by decide,
    ((evaluateTokens_isAnswer_iff_derivation zeroOverZero.tokens).2 zeroOverZero rfl
      (by decide)).2⟩

end InfixArithmetic.Sentences
