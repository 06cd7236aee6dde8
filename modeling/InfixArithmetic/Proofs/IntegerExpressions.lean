import InfixArithmetic.Proofs.WholeNumbers

/-!
Expressions over the integers are computed exactly. A formula is written as a text in which chains
group to the left, products bind tighter than sums and a minus tighter than both, with blank
characters between the tokens. Scanning such a text gives a sentence with the tree of the formula.
Where every part of the formula is an integer of at most 2^53 in size, strict evaluation of the tree
follows the integers, and the answer is printed as a numeral. Where some divisor is such a formula
and is zero, strict evaluation is given up at it, if not before.
-/
namespace InfixArithmetic.IntegerExpressions

open Binary64 BlankText Derivations Evaluation Faults Grammar MaximalMunch NumberText
  ReadingSentences Screening Sentences SignedZeros Tokens WholeNumbers

inductive Formula where
  | literal (n : Nat)
  | negation (operand : Formula)
  | operation (operation : Operation) (left right : Formula)
deriving DecidableEq

namespace Formula

/-- The exact value, which is meant only for exact formulas. -/
def value : Formula → Int
  | literal n => n
  | negation f => -f.value
  | operation o l r => onIntegers o l.value r.value

/-- Every subformula has an integer of at most 2^53 in size for its value, and every divisor is not
zero and divides its dividend. -/
def IsExact : Formula → Prop
  | literal n => n ≤ wholeLimit
  | negation f => f.IsExact
  | operation o l r =>
    l.IsExact ∧ r.IsExact ∧ (o = .divide → r.value ≠ 0 ∧ r.value ∣ l.value) ∧
      (onIntegers o l.value r.value).natAbs ≤ wholeLimit

/-- Every literal is at most 2^53. -/
def LiteralsFit : Formula → Prop
  | literal n => n ≤ wholeLimit
  | negation f => f.LiteralsFit
  | operation _ l r => l.LiteralsFit ∧ r.LiteralsFit

/-- Some divisor is exact and zero. -/
def HasZeroDivisor : Formula → Prop
  | literal _ => False
  | negation f => f.HasZeroDivisor
  | operation o l r =>
    l.HasZeroDivisor ∨ r.HasZeroDivisor ∨ (o = .divide ∧ r.IsExact ∧ r.value = 0)

instance decidableIsExact : (f : Formula) → Decidable f.IsExact
  | literal n => inferInstanceAs (Decidable (n ≤ wholeLimit))
  | negation f => decidableIsExact f
  | operation o l r =>
    have := decidableIsExact l
    have := decidableIsExact r
    inferInstanceAs (Decidable (l.IsExact ∧ r.IsExact ∧
      (o = .divide → r.value ≠ 0 ∧ r.value ∣ l.value) ∧
      (onIntegers o l.value r.value).natAbs ≤ wholeLimit))

instance decidableLiteralsFit : (f : Formula) → Decidable f.LiteralsFit
  | literal n => inferInstanceAs (Decidable (n ≤ wholeLimit))
  | negation f => decidableLiteralsFit f
  | operation _ l r =>
    have := decidableLiteralsFit l
    have := decidableLiteralsFit r
    inferInstanceAs (Decidable (l.LiteralsFit ∧ r.LiteralsFit))

instance decidableHasZeroDivisor : (f : Formula) → Decidable f.HasZeroDivisor
  | literal _ => inferInstanceAs (Decidable False)
  | negation f => decidableHasZeroDivisor f
  | operation o l r =>
    have := decidableHasZeroDivisor l
    have := decidableHasZeroDivisor r
    inferInstanceAs (Decidable (l.HasZeroDivisor ∨ r.HasZeroDivisor ∨
      (o = .divide ∧ r.IsExact ∧ r.value = 0)))

/-- The tree of the sentence that the formula is written as. -/
def tree : Formula → Tree
  | literal n => .number (.number false (whole n))
  | negation f => .negation f.tree
  | operation o l r => .operation o l.tree r.tree

theorem IsExact.literalsFit {f : Formula} (h : f.IsExact) : f.LiteralsFit := by
  induction f with
  | literal n => exact h
  | negation f ih => exact ih h
  | operation o l r ihl ihr => exact ⟨ihl h.1, ihr h.2.1⟩

theorem IsExact.natAbs_value_le {f : Formula} (h : f.IsExact) :
    f.value.natAbs ≤ wholeLimit := by
  induction f with
  | literal n => exact h
  | negation f ih =>
    have hsize : (-f.value).natAbs = f.value.natAbs := Int.natAbs_neg f.value
    exact hsize ▸ ih h
  | operation o l r _ _ => exact h.2.2.2

/-- Strict evaluation of an exact formula follows the integers, up to the sign of zeros. -/
theorem IsExact.exists_strictValue {f : Formula} (h : f.IsExact) :
    ∃ v, strictValue? f.tree = some v ∧ Alike v (ofInt f.value) := by
  induction f with
  | literal n =>
    have hvalue : ofInt n = .number false (whole n) := rfl
    exact ⟨_, rfl, hvalue ▸ alike_refl _⟩
  | negation f ih =>
    obtain ⟨v, hv, halike⟩ := ih h
    refine ⟨v.neg, ?_, halike.neg.trans (neg_ofInt f.value)⟩
    rw [tree, strictValue?, hv]
  | operation o l r ihl ihr =>
    obtain ⟨hl, hr, hdivides, -⟩ := h
    obtain ⟨v, hv, hvalike⟩ := ihl hl
    obtain ⟨w, hw, hwalike⟩ := ihr hr
    have hstrict : ¬ (o = .divide ∧ w.isZero = true) := by
      rintro ⟨hdivide, hzero⟩
      rw [hwalike.isZero_eq, isZero_ofInt hr.natAbs_value_le] at hzero
      exact (hdivides hdivide).1 hzero
    refine ⟨arithmetic o v w, ?_, ?_⟩
    · rw [tree, strictValue?, hv, hw]
      exact if_neg hstrict
    · exact arithmetic_ofInt o hvalike hwalike hl.natAbs_value_le hr.natAbs_value_le hdivides

/-- Whatever stands around an exact divisor that is zero, strict evaluation is given up. -/
theorem HasZeroDivisor.strictValue?_eq {f : Formula} (h : f.HasZeroDivisor) :
    strictValue? f.tree = none := by
  induction f with
  | literal n => cases h
  | negation f ih => rw [tree, strictValue?, ih h]
  | operation o l r ihl ihr =>
    rw [tree, strictValue?]
    rcases h with hl | hr | ⟨rfl, hexact, hzero⟩
    · rw [ihl hl]
    · rw [ihr hr]
      cases strictValue? l.tree <;> rfl
    · obtain ⟨w, hw, halike⟩ := hexact.exists_strictValue
      have hdivisor : w.isZero = true := by
        rw [halike.isZero_eq, isZero_ofInt hexact.natAbs_value_le]
        exact hzero
      rw [hw]
      cases strictValue? l.tree with
      | none => rfl
      | some v => exact if_pos ⟨rfl, hdivisor⟩

end Formula

def operatorChar : Operation → Char
  | .add => '+'
  | .subtract => '-'
  | .multiply => '*'
  | .divide => '/'

theorem symbol?_operatorChar (operation : Operation) :
    symbol? (operatorChar operation) = some (.operator operation) := by
  cases operation <;> rfl

/-- The text writes the formula in the category, with no point inside more minuses and parentheses
than there are levels. Numerals have no leading zeros, and blank characters may stand around every
part. -/
inductive Writes : Category → Nat → List Char → Formula → Prop
  | numeral (levels n : Nat) : Writes .primary levels (Nat.toDigits 10 n) (.literal n)
  | parentheses {levels : Nat} {text : List Char} {f : Formula} :
      Writes .sum levels text f → Writes .primary (levels + 1) ('(' :: (text ++ [')'])) f
  | plain {levels : Nat} {text : List Char} {f : Formula} :
      Writes .primary levels text f → Writes .unary levels text f
  | minus {levels : Nat} {text : List Char} {f : Formula} :
      Writes .unary levels text f → Writes .unary (levels + 1) ('-' :: text) (.negation f)
  | first {p : Precedence} {levels : Nat} {text : List Char} {f : Formula} :
      Writes p.operand levels text f → Writes (.chain p) levels text f
  | next {p : Precedence} {levels : Nat} {left right : List Char} {l r : Formula}
      (operation : Operation) (joins : p.joins operation = true) :
      Writes (.chain p) levels left l → Writes p.operand levels right r →
      Writes (.chain p) levels (left ++ operatorChar operation :: right) (.operation operation l r)
  | blanks {c : Category} {levels : Nat} {lead text trail : List Char} {f : Formula}
      (hlead : ∀ c ∈ lead, isBlank c = true) (htrail : ∀ c ∈ trail, isBlank c = true) :
      Writes c levels text f → Writes c levels (lead ++ text ++ trail) f

/-- A chain with one more operand. -/
def goOn {p : Precedence} (operation : Operation) (joins : p.joins operation = true)
    (right : Derivation p.operand) : Continuation p → Continuation p
  | .stop => .next operation joins right .stop
  | .next operation' joins' right' more =>
    .next operation' joins' right' (goOn operation joins right more)

section

variable {p : Precedence} {operation : Operation} (joins : p.joins operation = true)
  (right : Derivation p.operand)

theorem tokens_goOn (more : Continuation p) :
    (goOn operation joins right more).tokens =
      more.tokens ++ .symbol (.operator operation) :: right.tokens := by
  match more with
  | .stop => simp [goOn, Continuation.tokens]
  | .next operation' joins' right' more =>
    have ih := tokens_goOn more
    simp [goOn, Continuation.tokens, ih]

theorem treeAfter_goOn (more : Continuation p) (l : Tree) :
    (goOn operation joins right more).treeAfter l =
      .operation operation (more.treeAfter l) right.tree := by
  match more with
  | .stop => rfl
  | .next operation' joins' right' more =>
    exact treeAfter_goOn more (.operation operation' l right'.tree)

theorem depth_goOn (more : Continuation p) :
    (goOn operation joins right more).depth = max more.depth right.depth := by
  match more with
  | .stop => simp [goOn, Continuation.depth]
  | .next operation' joins' right' more =>
    have ih := depth_goOn more
    simp [goOn, Continuation.depth, ih, Nat.max_assoc]

end

/-- What a text that writes a formula is scanned to. -/
def ScansTo (c : Category) (levels : Nat) (text : List Char) (f : Formula) : Prop :=
  ∃ d : Derivation c, lex (cut text) = .ok d.tokens ∧ d.tree = f.tree ∧ d.depth ≤ levels

theorem scansTo_parentheses {levels : Nat} {text : List Char} {f : Formula}
    (h : ScansTo .sum levels text f) :
    ScansTo .primary (levels + 1) ('(' :: (text ++ [')'])) f := by
  obtain ⟨d, hlex, htree, hdepth⟩ := h
  refine ⟨.parentheses d, ?_, htree, Nat.succ_le_succ hdepth⟩
  have hopening : symbol? '(' = some .opening := rfl
  have hclosing : symbol? ')' = some .closing := rfl
  have hempty : lex (cut []) = .ok [] := rfl
  exact lex_cut_symbol_cons hopening (lex_cut_joined hclosing hlex hempty)

theorem scansTo_minus {levels : Nat} {text : List Char} {f : Formula}
    (h : ScansTo .unary levels text f) :
    ScansTo .unary (levels + 1) ('-' :: text) (.negation f) := by
  obtain ⟨d, hlex, htree, hdepth⟩ := h
  refine ⟨.minus d, ?_, congrArg Tree.negation htree, Nat.succ_le_succ hdepth⟩
  have hminus : symbol? '-' = some (.operator .subtract) := rfl
  exact lex_cut_symbol_cons hminus hlex

theorem scansTo_first {p : Precedence} {levels : Nat} {text : List Char} {f : Formula}
    (h : ScansTo p.operand levels text f) : ScansTo (.chain p) levels text f := by
  obtain ⟨d, hlex, htree, hdepth⟩ := h
  refine ⟨.chain d .stop, ?_, htree, Nat.max_le.mpr ⟨hdepth, Nat.zero_le levels⟩⟩
  have htokens : (Derivation.chain d .stop).tokens = d.tokens := List.append_nil d.tokens
  rw [hlex, htokens]

theorem scansTo_next {p : Precedence} {levels : Nat} {left right : List Char} {l r : Formula}
    {operation : Operation} (joins : p.joins operation = true)
    (hl : ScansTo (.chain p) levels left l) (hr : ScansTo p.operand levels right r) :
    ScansTo (.chain p) levels (left ++ operatorChar operation :: right)
      (.operation operation l r) := by
  obtain ⟨chained, hlex, htree, hdepth⟩ := hl
  obtain ⟨d, hlex', htree', hdepth'⟩ := hr
  obtain ⟨first, more⟩ := chained
  refine ⟨.chain first (goOn operation joins d more), ?_, ?_, ?_⟩
  · have htokens : (Derivation.chain first (goOn operation joins d more)).tokens =
        (Derivation.chain first more).tokens ++ .symbol (.operator operation) :: d.tokens := by
      rw [Derivation.tokens, Derivation.tokens, tokens_goOn, List.append_assoc]
    rw [lex_cut_joined (symbol?_operatorChar operation) hlex hlex', htokens]
  · rw [Derivation.tree] at htree ⊢
    rw [treeAfter_goOn, htree, htree']
    rfl
  · rw [Derivation.depth] at hdepth ⊢
    rw [depth_goOn]
    omega

/-- Scanning a text that writes a formula gives a sentence with the tree of the formula. -/
theorem Writes.scansTo {c : Category} {levels : Nat} {text : List Char} {f : Formula}
    (h : Writes c levels text f) (hfit : f.LiteralsFit) : ScansTo c levels text f := by
  induction h with
  | numeral levels n =>
    exact ⟨.number (.number false (whole n)), lex_cut_toDigits hfit, rfl, Nat.zero_le levels⟩
  | parentheses _ ih => exact scansTo_parentheses (ih hfit)
  | plain _ ih =>
    obtain ⟨d, hlex, htree, hdepth⟩ := ih hfit
    exact ⟨.plain d, hlex, htree, hdepth⟩
  | minus _ ih => exact scansTo_minus (ih hfit)
  | first _ ih => exact scansTo_first (ih hfit)
  | next operation joins _ _ ihl ihr => exact scansTo_next joins (ihl hfit.1) (ihr hfit.2)
  | blanks hlead htrail _ ih =>
    obtain ⟨d, hlex, htree, hdepth⟩ := ih hfit
    refine ⟨d, ?_, htree, hdepth⟩
    rw [lex_cut_blank_ends hlead htrail, hlex]

theorem evaluate_of_writes {text : String} {f : Formula}
    (h : Writes .sum maxDepth text.toList f) (hfit : f.LiteralsFit) :
    evaluate text = strictOutcome f.tree := by
  obtain ⟨d, hlex, htree, hdepth⟩ := h.scansTo hfit
  rw [evaluate_eq_strictOutcome hlex hdepth, htree]

/-- The text of an exact formula is answered by the numeral of its value. A text that divides by an
exact zero is answered by that fault, whatever else it computes. -/
theorem evaluate_integers {text : String} {f : Formula}
    (h : Writes .sum maxDepth text.toList f) :
    (f.IsExact → ∃ v, evaluate text = .ok v ∧ formatValue v = toString f.value) ∧
    (f.LiteralsFit → f.HasZeroDivisor → evaluate text = .error .divisionByZero) := by
  refine ⟨fun hexact => ?_, fun hfit hzero => ?_⟩
  · obtain ⟨v, hv, halike⟩ := hexact.exists_strictValue
    have hsize := hexact.natAbs_value_le
    have hfinite : v.isFinite = true := by rw [halike.isFinite_eq, isFinite_ofInt hsize]
    refine ⟨v, ?_, formatValue_of_alike_ofInt hsize halike⟩
    rw [evaluate_of_writes h hexact.literalsFit, strictOutcome, hv]
    exact if_pos hfinite
  · rw [evaluate_of_writes h hfit, strictOutcome, hzero.strictValue?_eq]

/-- A difference within parentheses that is multiplied and then divided, and one that divides a
product beyond the limit. -/
theorem evaluate_integers_differences :
    (∃ v, evaluate "(2 - 5)*7/3" = .ok v ∧ formatValue v = "-7") ∧
    evaluate "9007199254740992*3/(5 - 5)" = .error .divisionByZero := by
  have hnumeral (levels n : Nat) : Writes .unary levels (Nat.toDigits 10 n) (.literal n) :=
    .plain (.numeral levels n)
  have hfirst {text : List Char} {f : Formula} (h : Writes .unary maxDepth text f) :
      Writes .product maxDepth text f := .first h
  have hblank : ∀ c ∈ [' '], isBlank c = true := by
    intro c hc
    rw [List.mem_singleton.mp hc]
    rfl
  have hinner (m n : Nat) : Writes .sum 255
      ([] ++ Nat.toDigits 10 m ++ [' '] ++
        operatorChar .subtract :: ([' '] ++ Nat.toDigits 10 n ++ []))
      (.operation .subtract (.literal m) (.literal n)) :=
    .next .subtract rfl (.blanks nofun hblank (.first (.first (hnumeral 255 m))))
      (.blanks hblank nofun (.first (hnumeral 255 n)))
  have hdifference (m n : Nat) := Writes.plain (Writes.parentheses (hinner m n))
  have hproduct := (hfirst (hdifference 2 5)).next .multiply rfl (hnumeral maxDepth 7)
  have hquotient : Writes .sum maxDepth "(2 - 5)*7/3".toList _ :=
    .first (hproduct.next .divide rfl (hnumeral maxDepth 3))
  have hlarge := (hfirst (hnumeral maxDepth 9007199254740992)).next .multiply rfl
    (hnumeral maxDepth 3)
  have hzero : Writes .sum maxDepth "9007199254740992*3/(5 - 5)".toList _ :=
    .first (hlarge.next .divide rfl (hdifference 5 5))
  exact ⟨(evaluate_integers hquotient).1 (by decide),
    (evaluate_integers hzero).2 (by decide) (by decide)⟩

end InfixArithmetic.IntegerExpressions
