import InfixArithmetic.Proofs.RuleEquations

/-!
The grammar of expressions, whose derivations are data.

    sum     := product (('+' | '-') product)*
    product := unary (('*' | '/') unary)*
    unary   := '-' unary | primary
    primary := number | '(' sum ')'

A derivation keeps every choice that the rules leave open, so the grammar is unambiguous if the
tokens determine the derivation, and they do. Its tree joins the operands of a sum or a product from
left to right, and is what strict evaluation computes.
-/
namespace InfixArithmetic.Derivations

open Binary64 Faults Grammar RuleEquations Tokens

inductive Precedence where
  | additive
  | multiplicative

inductive Category where
  | chain (precedence : Precedence)
  | unary
  | primary

namespace Precedence

def joins : Precedence → Operation → Bool
  | additive => isAdditive
  | multiplicative => isMultiplicative

/-- The operands of a sum are products, and those of a product are unary. -/
def operand : Precedence → Category
  | additive => .chain multiplicative
  | multiplicative => .unary

end Precedence

namespace Category

abbrev sum : Category := .chain .additive

abbrev product : Category := .chain .multiplicative

/-- The operators that go on a sentence of the category, so that none ends before them. -/
def goesOn : Category → Operation → Bool
  | chain .additive => fun _ => true
  | chain .multiplicative => isMultiplicative
  | unary => fun _ => false
  | primary => fun _ => false

end Category

mutual

inductive Derivation : Category → Type where
  | chain {p : Precedence} (first : Derivation p.operand) (more : Continuation p) :
      Derivation (.chain p)
  | minus (operand : Derivation .unary) : Derivation .unary
  | plain (operand : Derivation .primary) : Derivation .unary
  | number (value : Value) : Derivation .primary
  | parentheses (enclosed : Derivation .sum) : Derivation .primary

/-- The repeated part of a sum or a product. -/
inductive Continuation : Precedence → Type where
  | stop {p : Precedence} : Continuation p
  | next {p : Precedence} (operation : Operation) (joins : p.joins operation = true)
      (right : Derivation p.operand) (more : Continuation p) : Continuation p

end

/-- What is left of a derivation when its rules and parentheses are forgotten. -/
inductive Tree where
  | number (value : Value)
  | negation (operand : Tree)
  | operation (operation : Operation) (left right : Tree)

mutual

/-- The sentence that is derived. -/
def Derivation.tokens : {c : Category} → Derivation c → List Token
  | _, .chain first more => first.tokens ++ more.tokens
  | _, .minus operand => .symbol (.operator .subtract) :: operand.tokens
  | _, .plain operand => operand.tokens
  | _, .number value => [.number value]
  | _, .parentheses enclosed => .symbol .opening :: (enclosed.tokens ++ [.symbol .closing])

def Continuation.tokens : {p : Precedence} → Continuation p → List Token
  | _, .stop => []
  | _, .next operation _ right more =>
    .symbol (.operator operation) :: (right.tokens ++ more.tokens)

end

mutual

/-- The largest number of minuses and parentheses that any point lies inside. -/
def Derivation.depth : {c : Category} → Derivation c → Nat
  | _, .chain first more => max first.depth more.depth
  | _, .minus operand => operand.depth + 1
  | _, .plain operand => operand.depth
  | _, .number _ => 0
  | _, .parentheses enclosed => enclosed.depth + 1

def Continuation.depth : {p : Precedence} → Continuation p → Nat
  | _, .stop => 0
  | _, .next _ _ right more => max right.depth more.depth

end

mutual

def Derivation.tree : {c : Category} → Derivation c → Tree
  | _, .chain first more => more.treeAfter first.tree
  | _, .minus operand => .negation operand.tree
  | _, .plain operand => operand.tree
  | _, .number value => .number value
  | _, .parentheses enclosed => enclosed.tree

/-- Joins what stands to the left with the next operand, and the result with what follows. -/
def Continuation.treeAfter : {p : Precedence} → Continuation p → Tree → Tree
  | _, .stop, left => left
  | _, .next operation _ right more, left =>
    more.treeAfter (.operation operation left right.tree)

end

variable {p : Precedence} {rest : List Token}

theorem stops_nil (binds : Operation → Bool) : Stops binds [] := nofun

theorem stops_closing (binds : Operation → Bool) (rest : List Token) :
    Stops binds (.symbol .closing :: rest) := nofun

theorem primary_stops (rest : List Token) : Stops Category.primary.goesOn rest :=
  fun _ _ _ => rfl

theorem operand_stops (h : Stops (Category.chain p).goesOn rest) :
    Stops p.operand.goesOn rest := by
  intro operation tokens heq
  have hgoes := h operation tokens heq
  cases p with
  | additive => simp [Category.goesOn] at hgoes
  | multiplicative => rfl

theorem operand_stops_of_joins {operation : Operation} (h : p.joins operation = true) :
    Stops p.operand.goesOn (.symbol (.operator operation) :: rest) := by
  intro operation' tokens heq
  cases heq
  cases p with
  | additive => simpa [Precedence.joins, Precedence.operand, Category.goesOn, isAdditive] using h
  | multiplicative => rfl

theorem not_stops_of_joins {operation : Operation} (h : p.joins operation = true) :
    ¬ Stops (Category.chain p).goesOn (.symbol (.operator operation) :: rest) := by
  intro hstops
  have hgoes := hstops operation rest rfl
  cases p with
  | additive => simp [Category.goesOn] at hgoes
  | multiplicative => exact absurd h (Bool.eq_false_iff.mp hgoes)

/-- The first operand of a chain is over where its continuation begins. -/
theorem Continuation.operand_stops (more : Continuation p)
    (h : Stops (Category.chain p).goesOn rest) :
    Stops p.operand.goesOn (more.tokens ++ rest) := by
  cases more with
  | stop => exact Derivations.operand_stops h
  | next operation joins right more => exact operand_stops_of_joins joins

mutual

/-- Two derivations in one category that derive the same tokens up to where they stop are equal. -/
theorem Derivation.eq_of_tokens_append : ∀ {c : Category} (d d' : Derivation c)
    (rest rest' : List Token), Stops c.goesOn rest → Stops c.goesOn rest' →
    d.tokens ++ rest = d'.tokens ++ rest' → d = d' ∧ rest = rest'
  | _, .chain first more, .chain first' more', rest, rest', hr, hr', h => by
    simp only [Derivation.tokens, List.append_assoc] at h
    obtain ⟨rfl, hmore⟩ := first.eq_of_tokens_append first' _ _ (more.operand_stops hr)
      (more'.operand_stops hr') h
    obtain ⟨rfl, rfl⟩ := more.eq_of_tokens_append more' rest rest' hr hr' hmore
    exact ⟨rfl, rfl⟩
  | _, .minus operand, .minus operand', rest, rest', hr, hr', h => by
    simp only [Derivation.tokens, List.cons_append, List.cons.injEq, true_and] at h
    obtain ⟨rfl, rfl⟩ := operand.eq_of_tokens_append operand' rest rest' hr hr' h
    exact ⟨rfl, rfl⟩
  | _, .plain operand, .plain operand', rest, rest', _, _, h => by
    obtain ⟨rfl, rfl⟩ := operand.eq_of_tokens_append operand' rest rest' (primary_stops rest)
      (primary_stops rest') h
    exact ⟨rfl, rfl⟩
  | _, .minus _, .plain operand', _, _, _, _, h => by
    cases operand' <;> simp [Derivation.tokens] at h
  | _, .plain operand, .minus _, _, _, _, _, h => by
    cases operand <;> simp [Derivation.tokens] at h
  | _, .number value, .number value', _, _, _, _, h => by
    simpa [Derivation.tokens] using h
  | _, .parentheses enclosed, .parentheses enclosed', _, _, _, _, h => by
    simp only [Derivation.tokens, List.cons_append, List.append_assoc, List.cons.injEq,
      true_and] at h
    obtain ⟨rfl, hrest⟩ := enclosed.eq_of_tokens_append enclosed' _ _ (stops_closing _ _)
      (stops_closing _ _) h
    exact ⟨rfl, List.tail_eq_of_cons_eq hrest⟩
  | _, .number _, .parentheses _, _, _, _, _, h => by simp [Derivation.tokens] at h
  | _, .parentheses _, .number _, _, _, _, _, h => by simp [Derivation.tokens] at h

theorem Continuation.eq_of_tokens_append : ∀ {p : Precedence} (more more' : Continuation p)
    (rest rest' : List Token), Stops (Category.chain p).goesOn rest →
    Stops (Category.chain p).goesOn rest' → more.tokens ++ rest = more'.tokens ++ rest' →
    more = more' ∧ rest = rest'
  | _, .stop, .stop, _, _, _, _, h => ⟨rfl, h⟩
  | _, .stop, .next _ joins' _ _, rest, _, hr, _, h => by
    have hrest : rest = _ := h
    exact absurd (hrest ▸ hr) (not_stops_of_joins joins')
  | _, .next _ joins _ _, .stop, _, rest', _, hr', h => by
    have hrest : _ = rest' := h
    exact absurd (hrest ▸ hr') (not_stops_of_joins joins)
  | _, .next operation joins right more, .next operation' joins' right' more', rest, rest', hr,
      hr', h => by
    simp only [Continuation.tokens, List.cons_append, List.append_assoc, List.cons.injEq,
      Token.symbol.injEq, Symbol.operator.injEq] at h
    obtain ⟨rfl, h⟩ := h
    obtain ⟨rfl, hmore⟩ := right.eq_of_tokens_append right' _ _ (more.operand_stops hr)
      (more'.operand_stops hr') h
    obtain ⟨rfl, rfl⟩ := more.eq_of_tokens_append more' rest rest' hr hr' hmore
    exact ⟨rfl, rfl⟩

end

/-- The grammar is unambiguous. -/
theorem Derivation.eq_of_tokens_eq {c : Category} (d d' : Derivation c)
    (h : d.tokens = d'.tokens) : d = d' := by
  have happ : d.tokens ++ [] = d'.tokens ++ [] := congrArg (· ++ []) h
  exact (d.eq_of_tokens_append d' [] [] (stops_nil _) (stops_nil _) happ).1

end InfixArithmetic.Derivations
