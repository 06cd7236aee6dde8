import InfixArithmetic.Proofs.Screening
import InfixArithmetic.Proofs.Sentences

/-!
A sentence is read in the same way wherever it stands. Each rule reads the sentences of its category
up to their end, whatever follows them, unless they nest more deeply than there are levels left, and
computes their trees. A text whose tokens are a sentence within the levels has the outcome of strict
evaluation.
-/
namespace InfixArithmetic.ReadingSentences

open Binary64 Derivations Evaluation Faults Grammar MaximalMunch RuleEquations Scanning Screening
  Sentences Tokens

/-- The rule one level further in, if there is one. -/
def innerOperand? : Nat → Option Rule
  | 0 => none
  | levels + 1 => some (operand levels)

theorem operand_eq (levels : Nat) : operand levels = signed (innerOperand? levels) := by
  cases levels <;> rfl

/-- The rule that reads the sentences of a category with so many levels left. -/
def ruleOf (levels : Nat) : Category → Rule
  | .chain .additive => expression (operand levels)
  | .chain .multiplicative => term (operand levels)
  | .unary => operand levels
  | .primary => primary (innerOperand? levels)

theorem ruleOf_chain (levels : Nat) (p : Precedence) :
    ruleOf levels (.chain p) = chain p.joins (ruleOf levels p.operand) := by
  cases p <;> rfl

/-- The outcome is that of reading a sentence with this tree up to the rest. -/
def ReadsUpTo (rest : List Token) (tree : Tree) (outcome : Except GrammarFault Reading) : Prop :=
  outcome = .error .tooDeep ∨
    ∃ reading, outcome = .ok reading ∧ reading.rest = rest ∧ Computes reading tree

theorem ReadsUpTo.bind {rest rest' : List Token} {tree tree' : Tree}
    {outcome : Except GrammarFault Reading} {f : Reading → Except GrammarFault Reading}
    (h : ReadsUpTo rest tree outcome)
    (hf : ∀ reading, reading.rest = rest → Computes reading tree →
      ReadsUpTo rest' tree' (f reading)) :
    ReadsUpTo rest' tree' (outcome.bind f) := by
  rcases h with rfl | ⟨reading, rfl, hrest, hvalue⟩
  · exact Or.inl rfl
  · exact hf reading hrest hvalue

theorem readsUpTo_ok {reading : Reading} {tree : Tree} (h : Computes reading tree) :
    ReadsUpTo reading.rest tree (.ok reading) :=
  Or.inr ⟨reading, rfl, rfl, h⟩

theorem stops_of_stops_chain {p : Precedence} {rest : List Token}
    (h : Stops (Category.chain p).goesOn rest) : Stops p.joins rest := by
  intro operation tokens hrest
  have hgoes := h operation tokens hrest
  cases p with
  | additive => cases hgoes
  | multiplicative => exact hgoes

theorem head?_primary_tokens (d : Derivation .primary) (rest : List Token) :
    (d.tokens ++ rest).head? ≠ some (.symbol (.operator .subtract)) := by
  cases d <;> simp [Derivation.tokens]

mutual

/-- A sentence followed by anything that does not go on with it is read up to its end. -/
theorem readsUpTo_derivation : ∀ {c : Category} (d : Derivation c) (levels : Nat)
    (rest : List Token), Stops c.goesOn rest →
    ReadsUpTo rest d.tree ((ruleOf levels c).read (d.tokens ++ rest))
  | _, .chain (p := p) first more, levels, rest, hstops => by
    have hfirst := readsUpTo_derivation first levels (more.tokens ++ rest)
      (more.operand_stops hstops)
    rw [Derivation.tokens, List.append_assoc, ruleOf_chain, chain_read]
    apply hfirst.bind
    intro reading hrest hvalue
    exact readsUpTo_continuation more levels rest hstops reading first.tree hrest hvalue
  | _, .minus positive, levels, rest, _ => by
    rw [Derivation.tokens, List.cons_append, ruleOf, operand_eq, signed_read_minus]
    cases levels with
    | zero => exact Or.inl rfl
    | succ levels =>
      apply (readsUpTo_derivation positive levels rest (fun _ _ _ => rfl)).bind
      rintro reading rfl hvalue
      exact readsUpTo_ok (negate_computes hvalue)
  | _, .plain d, levels, rest, _ => by
    rw [Derivation.tokens, ruleOf, operand_eq,
      signed_read_of_ne_minus _ _ (head?_primary_tokens d rest)]
    exact readsUpTo_derivation d levels rest (primary_stops rest)
  | _, .number value, _, _, _ => Or.inr ⟨_, rfl, rfl, rfl⟩
  | _, .parentheses enclosed, levels, rest, _ => by
    rw [Derivation.tokens, List.cons_append, List.append_assoc, ruleOf,
      primary_read_opening _ _ (tokens_head? enclosed _)]
    cases levels with
    | zero => exact Or.inl rfl
    | succ levels =>
      apply (readsUpTo_derivation enclosed levels _ (stops_closing _ _)).bind
      intro reading hrest hvalue
      refine Or.inr ⟨{ reading with rest := rest }, ?_, rfl, hvalue⟩
      simp [close, hrest]

theorem readsUpTo_continuation : ∀ {p : Precedence} (more : Continuation p) (levels : Nat)
    (rest : List Token), Stops (Category.chain p).goesOn rest → ∀ (left : Reading) (l : Tree),
    left.rest = more.tokens ++ rest → Computes left l →
    ReadsUpTo rest (more.treeAfter l) (chainFrom p.joins (ruleOf levels p.operand) left)
  | _, .stop, _, rest, hstops, left, _, hrest, hvalue => by
    obtain rfl : left.rest = rest := hrest
    rw [chainFrom_of_stops (stops_of_stops_chain hstops)]
    exact readsUpTo_ok hvalue
  | _, .next operation joins right more, levels, rest, hstops, left, l, hrest, hvalue => by
    rw [Continuation.tokens, List.cons_append, List.append_assoc] at hrest
    rw [chainFrom_of_binds joins hrest]
    have hright := readsUpTo_derivation right levels (more.tokens ++ rest)
      (more.operand_stops hstops)
    apply hright.bind
    intro reading hrest' hvalue'
    apply readsUpTo_continuation more levels rest hstops
    · rw [Reading.combine_rest, hrest']
    · exact combine_computes operation hvalue hvalue'

end

theorem evaluateTokens_derivation (d : Derivation .sum) (hdepth : d.depth ≤ maxDepth) :
    evaluateTokens d.tokens = strictOutcome d.tree := by
  obtain ⟨reading, hread⟩ := readAll_of_derivation d hdepth
  obtain ⟨d', htokens, -, hvalue⟩ := readAll_derives hread
  obtain rfl := d'.eq_of_tokens_eq d htokens
  exact evaluateTokens_eq_strictOutcome hread hvalue

theorem strictOutcome_cases (tree : Tree) :
    strictOutcome tree = .error .divisionByZero ∨ strictOutcome tree = .error .outOfRange ∨
      ∃ value, strictOutcome tree = .ok value := by
  unfold strictOutcome
  split
  · exact Or.inl rfl
  · split
    · exact Or.inr (Or.inr ⟨_, rfl⟩)
    · exact Or.inr (Or.inl rfl)

/-- A text that is cut into a sentence passes the screening. -/
theorem evaluate_eq_strictOutcome {text : String} {d : Derivation .sum}
    (hlex : lex (cut text.toList) = .ok d.tokens) (hdepth : d.depth ≤ maxDepth) :
    evaluate text = strictOutcome d.tree := by
  have hcompute : compute text = strictOutcome d.tree := by
    rw [compute, tokenize_eq_lex_cut, hlex]
    exact evaluateTokens_derivation d hdepth
  have hanswer := strictOutcome_cases d.tree
  rw [← hcompute] at hanswer ⊢
  rcases screen_cases text with ⟨-, hempty⟩ | ⟨before, c, after, -, htext, hc, hbefore⟩ |
    ⟨kept, hscreen, htrimmed, -⟩
  · rw [compute_of_isTrimmed_nil hempty] at hanswer
    simp at hanswer
  · rcases compute_of_isForeign htext hc hbefore with h | ⟨_, _, _, _, _, h⟩
    · rw [h] at hanswer
      simp at hanswer
    · rw [h] at hanswer
      simp at hanswer
  · rw [evaluate, hscreen, compute_of_isTrimmed htrimmed]

end InfixArithmetic.ReadingSentences
