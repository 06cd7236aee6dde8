import InfixArithmetic.Proofs.ReadingSentences
import InfixArithmetic.Proofs.Screening
import InfixArithmetic.Proofs.SignedZeros
import InfixArithmetic.Sessions

/-!
A subexpression in parentheses may be replaced by any other of the same value, whatever stands
before and after it. Reading the two texts meets the same fault or computes values that are alike,
unless one of them nests too deeply. No zero therefore shows its sign in an answer.
-/
namespace InfixArithmetic.Substitution

open Binary64 BlankText CharacterClasses DecimalLiterals Derivations Evaluation Faults Grammar
  MaximalMunch ReadingSentences RuleEquations Scanning Screening Sentences Sessions SignedZeros
  Tokens

/-- The tokens differ only within parentheses that enclose sentences of values that are alike. -/
inductive Interchanged : List Token → List Token → Prop
  | nil : Interchanged [] []
  | cons (token : Token) {left right : List Token} :
      Interchanged left right → Interchanged (token :: left) (token :: right)
  | parentheses {d d' : Derivation .sum} {x y : Value} {left right : List Token}
      (hx : strictValue? d.tree = some x) (hy : strictValue? d'.tree = some y)
      (halike : Alike x y) :
      Interchanged left right →
      Interchanged (.symbol .opening :: (d.tokens ++ .symbol .closing :: left))
        (.symbol .opening :: (d'.tokens ++ .symbol .closing :: right))

namespace Interchanged

theorem refl : ∀ tokens : List Token, Interchanged tokens tokens
  | [] => .nil
  | token :: rest => .cons token (refl rest)

theorem append_left {left right : List Token} (h : Interchanged left right) :
    ∀ before : List Token, Interchanged (before ++ left) (before ++ right)
  | [] => h
  | token :: before => .cons token (append_left h before)

theorem head?_eq {left right : List Token} (h : Interchanged left right) :
    left.head? = right.head? := by
  cases h <;> rfl

/-- Only what follows an opening parenthesis can have been changed. -/
theorem eq_cons {token : Token} {tokens right : List Token}
    (h : Interchanged (token :: tokens) right) (hopening : token ≠ .symbol .opening) :
    ∃ tokens', right = token :: tokens' ∧ Interchanged tokens tokens' := by
  cases h with
  | cons token hrest => exact ⟨_, rfl, hrest⟩
  | parentheses hx hy halike hrest => exact absurd rfl hopening

theorem stops {binds : Operation → Bool} {left right : List Token}
    (h : Interchanged left right) (hstops : Stops binds left) : Stops binds right := by
  rintro operation rest rfl
  have hhead := h.head?_eq
  cases left with
  | nil => cases hhead
  | cons token tokens =>
    cases hhead
    exact hstops operation tokens rfl

end Interchanged

structure AlikeReading (left right : Reading) : Prop where
  value : Alike left.value right.value
  dividesByZero : left.dividesByZero = right.dividesByZero
  rest : Interchanged left.rest right.rest

theorem AlikeReading.negate {left right : Reading} (h : AlikeReading left right) :
    AlikeReading left.negate right.negate :=
  ⟨h.value.neg, h.dividesByZero, h.rest⟩

theorem AlikeReading.combine {left right left' right' : Reading} (operation : Operation)
    (hl : AlikeReading left left') (hr : AlikeReading right right') :
    AlikeReading (left.combine operation right) (left'.combine operation right') := by
  unfold Reading.combine
  rcases result?_alike operation hl.value hr.value with ⟨hnone, hnone'⟩ | ⟨x, y, hx, hy, halike⟩
  · rw [hnone, hnone']
    exact ⟨alike_refl _, rfl, hr.rest⟩
  · rw [hx, hy]
    refine ⟨halike, ?_, hr.rest⟩
    rw [hl.dividesByZero, hr.dividesByZero]

/-- Two outcomes of reading agree: both are the same fault or both are readings that are alike. One
that is nested too deeply agrees with any. -/
def Agree (left right : Except GrammarFault Reading) : Prop :=
  left = .error .tooDeep ∨ right = .error .tooDeep ∨
    (∃ fault, left = .error fault ∧ right = .error fault) ∨
    ∃ a b, left = .ok a ∧ right = .ok b ∧ AlikeReading a b

theorem agree_error (fault : GrammarFault) : Agree (.error fault) (.error fault) :=
  Or.inr (Or.inr (Or.inl ⟨fault, rfl, rfl⟩))

theorem agree_ok {left right : Reading} (h : AlikeReading left right) :
    Agree (.ok left) (.ok right) :=
  Or.inr (Or.inr (Or.inr ⟨left, right, rfl, rfl, h⟩))

theorem Agree.bind {left right : Except GrammarFault Reading}
    {f g : Reading → Except GrammarFault Reading} (h : Agree left right)
    (hfg : ∀ a b, left = .ok a → right = .ok b → AlikeReading a b → Agree (f a) (g b)) :
    Agree (left.bind f) (right.bind g) := by
  rcases h with rfl | rfl | ⟨fault, rfl, rfl⟩ | ⟨a, b, rfl, rfl, halike⟩
  · exact Or.inl rfl
  · exact Or.inr (Or.inl rfl)
  · exact agree_error fault
  · exact hfg a b rfl rfl halike

/-- Interchanged tokens are read to outcomes that agree. -/
def Respects (rule : Rule) : Prop :=
  ∀ left right, Interchanged left right → Agree (rule.read left) (rule.read right)

theorem chainFrom_agree {binds : Operation → Bool} {operand : Rule} (hoperand : Respects operand)
    (left right : Reading) (h : AlikeReading left right) :
    Agree (chainFrom binds operand left) (chainFrom binds operand right) := by
  induction hlength : left.rest.length using Nat.strongRecOn generalizing left right with
  | ind length ih =>
    by_cases hstops : Stops binds left.rest
    · rw [chainFrom_of_stops hstops, chainFrom_of_stops (h.rest.stops hstops)]
      exact agree_ok h
    · simp only [Stops, not_forall, Bool.not_eq_false] at hstops
      obtain ⟨operation, tokens, hrest, hbinds⟩ := hstops
      have hinterchanged := h.rest
      rw [hrest] at hinterchanged
      obtain ⟨tokens', hrest', htokens⟩ := hinterchanged.eq_cons nofun
      rw [chainFrom_of_binds hbinds hrest, chainFrom_of_binds hbinds hrest']
      apply (hoperand tokens tokens' htokens).bind
      intro a b ha _ halike
      have hshorter := operand.consumes tokens a ha
      refine ih _ ?_ _ _ (h.combine operation halike) rfl
      rw [Reading.combine_rest, ← hlength, hrest, List.length_cons]
      omega

theorem chain_respects {operand : Rule} (binds : Operation → Bool) (hoperand : Respects operand) :
    Respects (chain binds operand) := by
  intro left right h
  rw [chain_read, chain_read]
  apply (hoperand left right h).bind
  intro a b _ _ halike
  exact chainFrom_agree hoperand a b halike

theorem expression_respects {operand : Rule} (hoperand : Respects operand) :
    Respects (expression operand) :=
  chain_respects _ (chain_respects _ hoperand)

theorem close_agree {left right : Reading} (h : AlikeReading left right) :
    Agree (close left) (close right) := by
  obtain ⟨x, divides, tokens⟩ := left
  obtain ⟨y, divides', tokens'⟩ := right
  obtain ⟨hvalue, hdivides, hrest⟩ := h
  simp only at hvalue hdivides hrest
  cases hrest with
  | nil => exact agree_error _
  | parentheses hx hy halike hrest => exact agree_error _
  | cons token hrest =>
    match token with
    | .number _ => exact agree_error _
    | .symbol .opening => exact agree_error _
    | .symbol (.operator _) => exact agree_error _
    | .symbol .closing => exact agree_ok ⟨hvalue, hdivides, hrest⟩

theorem value_of_computes {reading : Reading} {tree : Tree} {x : Value}
    (h : Computes reading tree) (hx : strictValue? tree = some x) :
    reading.value = x ∧ reading.dividesByZero = false := by
  unfold Computes at h
  rw [hx] at h
  cases hdivides : reading.dividesByZero <;> simp [hdivides] at h
  exact ⟨h.symm, rfl⟩

/-- The one place where the tokens differ. -/
theorem parentheses_agree {d d' : Derivation .sum} {x y : Value} {left right : List Token}
    (hx : strictValue? d.tree = some x) (hy : strictValue? d'.tree = some y) (halike : Alike x y)
    (hrest : Interchanged left right) (levels : Nat) :
    Agree ((primary (innerOperand? levels)).read
        (.symbol .opening :: (d.tokens ++ .symbol .closing :: left)))
      ((primary (innerOperand? levels)).read
        (.symbol .opening :: (d'.tokens ++ .symbol .closing :: right))) := by
  have hread := readsUpTo_derivation (.parentheses d) levels left (primary_stops left)
  have hread' := readsUpTo_derivation (.parentheses d') levels right (primary_stops right)
  simp only [Derivation.tokens, List.cons_append, List.append_assoc, List.nil_append]
    at hread hread'
  rcases hread with hdeep | ⟨a, ha, rfl, hvalue⟩
  · exact Or.inl hdeep
  · rcases hread' with hdeep' | ⟨b, hb, rfl, hvalue'⟩
    · exact Or.inr (Or.inl hdeep')
    · obtain ⟨rfl, hdivides⟩ := value_of_computes hvalue hx
      obtain ⟨rfl, hdivides'⟩ := value_of_computes hvalue' hy
      exact Or.inr (Or.inr (Or.inr ⟨a, b, ha, hb, halike, hdivides.trans hdivides'.symm, hrest⟩))

theorem primary_respects (levels : Nat)
    (hinner : ∀ operand, innerOperand? levels = some operand → Respects operand) :
    Respects (primary (innerOperand? levels)) := by
  intro left right h
  cases h with
  | nil => exact agree_error _
  | parentheses hx hy halike hrest => exact parentheses_agree hx hy halike hrest levels
  | @cons token left right hrest =>
    match token with
    | .number value => exact agree_ok ⟨alike_refl _, rfl, hrest⟩
    | .symbol .closing => exact agree_error _
    | .symbol (.operator _) => exact agree_error _
    | .symbol .opening =>
      by_cases hempty : left.head? = some (.symbol .closing)
      · obtain ⟨after, rfl⟩ := List.head?_eq_some_iff.mp hempty
        obtain ⟨after', rfl, -⟩ := hrest.eq_cons nofun
        exact agree_error _
      · have hempty' : right.head? ≠ some (.symbol .closing) := hrest.head?_eq ▸ hempty
        rw [primary_read_opening _ left hempty, primary_read_opening _ right hempty']
        cases hlevels : innerOperand? levels with
        | none => exact agree_error _
        | some operand =>
          apply (expression_respects (hinner operand hlevels) left right hrest).bind
          intro a b _ _ halike
          exact close_agree halike

theorem signed_respects (levels : Nat)
    (hinner : ∀ operand, innerOperand? levels = some operand → Respects operand) :
    Respects (signed (innerOperand? levels)) := by
  intro left right h
  by_cases hminus : left.head? = some (.symbol (.operator .subtract))
  · obtain ⟨tokens, rfl⟩ := List.head?_eq_some_iff.mp hminus
    obtain ⟨tokens', rfl, htokens⟩ := h.eq_cons nofun
    rw [signed_read_minus, signed_read_minus]
    cases hlevels : innerOperand? levels with
    | none => exact agree_error _
    | some operand =>
      apply (hinner operand hlevels tokens tokens' htokens).bind
      intro a b _ _ halike
      exact agree_ok halike.negate
  · have hminus' : right.head? ≠ some (.symbol (.operator .subtract)) := h.head?_eq ▸ hminus
    rw [signed_read_of_ne_minus _ left hminus, signed_read_of_ne_minus _ right hminus']
    exact primary_respects levels hinner left right h

theorem operand_respects (levels : Nat) : Respects (operand levels) := by
  induction levels with
  | zero => exact signed_respects 0 nofun
  | succ levels ih =>
    apply signed_respects (levels + 1)
    intro operand hoperand
    cases hoperand
    exact ih

theorem readAll_agree {left right : List Token} (h : Interchanged left right) :
    Agree (readAll left) (readAll right) := by
  have hread := expression_respects (operand_respects maxDepth) left right h
  unfold readAll
  rcases hread with hdeep | hdeep | ⟨fault, hl, hr⟩ | ⟨a, b, ha, hb, halike⟩
  · rw [hdeep]
    exact Or.inl rfl
  · rw [hdeep]
    exact Or.inr (Or.inl rfl)
  · rw [hl, hr]
    exact agree_error fault
  · rw [ha, hb]
    have hrest := halike.rest
    generalize ha' : a.rest = tokens at hrest
    generalize hb' : b.rest = tokens' at hrest
    cases hrest with
    | nil => simpa [ha', hb'] using agree_ok halike
    | parentheses hx hy halike hrest => simpa [ha', hb'] using agree_error .operationExpected
    | cons token hrest =>
      match token with
      | .number _ => simpa [ha', hb'] using agree_error .operationExpected
      | .symbol .opening => simpa [ha', hb'] using agree_error .operationExpected
      | .symbol (.operator _) => simpa [ha', hb'] using agree_error .operationExpected
      | .symbol .closing => simpa [ha', hb'] using agree_error .unbalancedParentheses

/-- Both outcomes are the same fault or both are values that are alike. -/
def AlikeOutcome (left right : Except EvaluationFault Value) : Prop :=
  (∃ fault, left = .error fault ∧ right = .error fault) ∨
    ∃ x y, left = .ok x ∧ right = .ok y ∧ Alike x y

theorem evaluateTokens_alike {left right : List Token} (h : Interchanged left right)
    (hdeep : evaluateTokens left ≠ .error (.ungrammatical .tooDeep))
    (hdeep' : evaluateTokens right ≠ .error (.ungrammatical .tooDeep)) :
    AlikeOutcome (evaluateTokens left) (evaluateTokens right) := by
  unfold evaluateTokens at *
  rcases readAll_agree h with hl | hr | ⟨fault, hl, hr⟩ | ⟨a, b, ha, hb, halike⟩
  · exact absurd (by rw [hl]) hdeep
  · exact absurd (by rw [hr]) hdeep'
  · rw [hl, hr]
    exact Or.inl ⟨_, rfl, rfl⟩
  · rw [ha, hb]
    simp only [halike.dividesByZero, halike.value.isFinite_eq]
    split
    · exact Or.inl ⟨_, rfl, rfl⟩
    · split
      · exact Or.inr ⟨_, _, rfl, rfl, halike.value⟩
      · exact Or.inl ⟨_, rfl, rfl⟩

/-- A text with a value holds no foreign character, and its tokens are a sentence whose tree has
that value. -/
theorem sentence_of_evaluate {text : String} {x : Value} (h : evaluate text = .ok x) :
    text.toList.find? (fun c => !isAllowed c) = none ∧
      ∃ d : Derivation .sum, lex (cut text.toList) = .ok d.tokens ∧
        strictValue? d.tree = some x := by
  rcases screen_cases text with ⟨hscreen, -⟩ | ⟨before, c, after, hscreen, -⟩ |
    ⟨kept, hscreen, htrimmed, -, hforeign⟩
  · rw [evaluate, hscreen] at h
    cases h
  · rw [evaluate, hscreen] at h
    cases h
  · have hallowed : text.toList.find? (fun c => !isAllowed c) = none := by
      rw [List.find?_eq_none]
      intro c hc hrefused
      exact hforeign c hc ((isForeign_iff_not_isAllowed c).mpr (by simpa using hrefused))
    have hcompute : compute text = .ok x := by
      rw [compute_of_isTrimmed htrimmed, ← h, evaluate, hscreen]
    rw [compute, tokenize_eq_lex_cut] at hcompute
    cases hlex : lex (cut text.toList) with
    | error fault =>
      rw [hlex] at hcompute
      cases hcompute
    | ok tokens =>
      rw [hlex] at hcompute
      cases hread : readAll tokens with
      | error fault => simp [evaluateTokens, hread] at hcompute
      | ok reading =>
        obtain ⟨d, rfl, -, hvalue⟩ := readAll_derives hread
        simp only [evaluateTokens, hread] at hcompute
        unfold Computes at hvalue
        cases hdivides : reading.dividesByZero with
        | true => simp [hdivides] at hcompute
        | false =>
          rw [hdivides] at hcompute hvalue
          simp only [Bool.false_eq_true, if_false] at hcompute hvalue
          split at hcompute
          · cases hcompute
            exact ⟨hallowed, d, rfl, hvalue⟩
          · cases hcompute

theorem toList_parenthesized (p q a : String) :
    (p ++ "(" ++ a ++ ")" ++ q).toList = p.toList ++ '(' :: (a.toList ++ ')' :: q.toList) := by
  simp [String.toList_append]

/-- Screening does not see what stands in the parentheses if that has a value. -/
theorem evaluate_parenthesized (p q : String) {a : String}
    (ha : a.toList.find? (fun c => !isAllowed c) = none) :
    evaluate (p ++ "(" ++ a ++ ")" ++ q) =
      match (p.toList ++ q.toList).find? (fun c => !isAllowed c) with
      | some c => .error (.foreignCharacter c)
      | none => compute (p ++ "(" ++ a ++ ")" ++ q) := by
  have hopening : (!isAllowed '(') = false := by decide
  have hclosing : (!isAllowed ')') = false := by decide
  have hfind : (p ++ "(" ++ a ++ ")" ++ q).toList.find? (fun c => !isAllowed c) =
      (p.toList ++ q.toList).find? (fun c => !isAllowed c) := by
    simp only [toList_parenthesized, List.find?_append, List.find?_cons, hopening, hclosing, ha,
      Option.none_or]
  have hnonblank : ∃ c ∈ (p ++ "(" ++ a ++ ")" ++ q).toList, isBlank c = false := by
    refine ⟨'(', ?_, by decide⟩
    rw [toList_parenthesized]
    simp
  have hevaluate := evaluate_eq_of_not_isBlank hnonblank
  rw [hfind] at hevaluate
  exact hevaluate

theorem lex_cut_parenthesized (p q : String) {a : String} {tokens : List Token}
    (ha : lex (cut a.toList) = .ok tokens) :
    lex (cut (p ++ "(" ++ a ++ ")" ++ q).toList) =
      (lex (cut p.toList)).bind fun before =>
        (lex (cut q.toList)).map fun after =>
          before ++ .symbol .opening :: (tokens ++ .symbol .closing :: after) := by
  have hopening : symbol? '(' = some .opening := rfl
  have hclosing : symbol? ')' = some .closing := rfl
  rw [toList_parenthesized, lex_cut_symbol hopening, lex_cut_symbol hclosing, ha]
  simp only [Except.bind]
  cases lex (cut p.toList) with
  | error fault => rfl
  | ok before => cases lex (cut q.toList) <;> rfl

theorem compute_parenthesized_alike (p q : String) {a b : String} {d d' : Derivation .sum}
    {x y : Value} (ha : lex (cut a.toList) = .ok d.tokens)
    (hb : lex (cut b.toList) = .ok d'.tokens) (hx : strictValue? d.tree = some x)
    (hy : strictValue? d'.tree = some y) (hxy : Alike x y)
    (hdeep : compute (p ++ "(" ++ a ++ ")" ++ q) ≠ .error (.ungrammatical .tooDeep))
    (hdeep' : compute (p ++ "(" ++ b ++ ")" ++ q) ≠ .error (.ungrammatical .tooDeep)) :
    AlikeOutcome (compute (p ++ "(" ++ a ++ ")" ++ q)) (compute (p ++ "(" ++ b ++ ")" ++ q)) := by
  simp only [compute, tokenize_eq_lex_cut, lex_cut_parenthesized p q ha,
    lex_cut_parenthesized p q hb] at *
  cases hbefore : lex (cut p.toList) with
  | error fault => exact Or.inl ⟨_, rfl, rfl⟩
  | ok before =>
    cases hafter : lex (cut q.toList) with
    | error fault => exact Or.inl ⟨_, rfl, rfl⟩
    | ok after =>
      rw [hbefore, hafter] at hdeep hdeep'
      refine evaluateTokens_alike ?_ hdeep hdeep'
      exact (Interchanged.parentheses hx hy hxy (.refl after)).append_left before

theorem answerLine_eq_of_alikeOutcome {left right : String}
    (h : AlikeOutcome (evaluate left) (evaluate right)) : answerLine left = answerLine right := by
  unfold answerLine
  rcases h with ⟨fault, hl, hr⟩ | ⟨x, y, hl, hr, halike⟩
  · rw [hl, hr]
  · rw [hl, hr]
    simp only [halike.formatValue_eq]

/-- Expressions whose values are equal or both zeros may be exchanged for one another within
parentheses in any text, and the line that answers it is the same. -/
theorem evaluate_exchange (p q a b : String) (x y : Value) (ha : evaluate a = .ok x)
    (hb : evaluate b = .ok y) (hxy : x = y ∨ (x.isZero = true ∧ y.isZero = true))
    (hdeep : evaluate (p ++ "(" ++ a ++ ")" ++ q) ≠ .error (.ungrammatical .tooDeep))
    (hdeep' : evaluate (p ++ "(" ++ b ++ ")" ++ q) ≠ .error (.ungrammatical .tooDeep)) :
    AlikeOutcome (evaluate (p ++ "(" ++ a ++ ")" ++ q)) (evaluate (p ++ "(" ++ b ++ ")" ++ q)) ∧
      answerLine (p ++ "(" ++ a ++ ")" ++ q) = answerLine (p ++ "(" ++ b ++ ")" ++ q) := by
  obtain ⟨hallowed, d, htokens, hx⟩ := sentence_of_evaluate ha
  obtain ⟨hallowed', d', htokens', hy⟩ := sentence_of_evaluate hb
  have halike : AlikeOutcome (evaluate (p ++ "(" ++ a ++ ")" ++ q))
      (evaluate (p ++ "(" ++ b ++ ")" ++ q)) := by
    rw [evaluate_parenthesized p q hallowed] at hdeep ⊢
    rw [evaluate_parenthesized p q hallowed'] at hdeep' ⊢
    cases hfind : (p.toList ++ q.toList).find? (fun c => !isAllowed c) with
    | some c => exact Or.inl ⟨_, rfl, rfl⟩
    | none =>
      rw [hfind] at hdeep hdeep'
      exact compute_parenthesized_alike p q htokens htokens' hx hy hxy hdeep hdeep'
  exact ⟨halike, answerLine_eq_of_alikeOutcome halike⟩

/-- A zero and its negation as the subtrahend and then as the divisor of a text that goes on. -/
theorem evaluate_exchange_zeros :
    evaluate "2-2" = .ok .zero ∧ evaluate "-0" = .ok (.number true .zero) ∧
      answerLine "-0-(2-2)" = answerLine "-0-(-0)" ∧
      answerLine "1/(2-2)+7)" = answerLine "1/(-0)+7)" := by
  have hzero : evaluate "2-2" = .ok .zero := by decide +kernel
  have hnegative : evaluate "-0" = .ok (.number true .zero) := by decide +kernel
  refine ⟨hzero, hnegative, ?_, ?_⟩
  · exact (evaluate_exchange "-0-" "" "2-2" "-0" _ _ hzero hnegative (Or.inr ⟨rfl, rfl⟩)
      (by decide +kernel) (by decide +kernel)).2
  · exact (evaluate_exchange "1/" "+7)" "2-2" "-0" _ _ hzero hnegative (Or.inr ⟨rfl, rfl⟩)
      (by decide +kernel) (by decide +kernel)).2

end InfixArithmetic.Substitution
