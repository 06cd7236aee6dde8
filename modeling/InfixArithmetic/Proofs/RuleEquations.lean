import InfixArithmetic.Grammar

/-!
What each rule of the grammar reads, said once so that no later proof opens a rule. Each rule has an
equation for what it does with its tokens, and for a success the readings that it is made of. A
chain goes on for as long as it can: what it leaves does not begin with an operator that it joins.
-/
namespace InfixArithmetic.RuleEquations

open Faults Grammar Tokens

theorem bind_eq_ok {α β : Type} {fault : Type} {x : Except fault α} {f : α → Except fault β} {b : β}
    (h : x.bind f = .ok b) : ∃ a, x = .ok a ∧ f a = .ok b := by
  cases x with
  | error e => cases h
  | ok a => exact ⟨a, rfl, h⟩

theorem chain_read (binds : Operation → Bool) (operand : Rule) (tokens : List Token) :
    (chain binds operand).read tokens = (operand.read tokens).bind (chainFrom binds operand) := by
  simp only [chain]
  cases operand.read tokens <;> rfl

theorem chain_read_eq_ok {binds : Operation → Bool} {operand : Rule} {tokens : List Token}
    {reading : Reading} (h : (chain binds operand).read tokens = .ok reading) :
    ∃ first, operand.read tokens = .ok first ∧ chainFrom binds operand first = .ok reading := by
  rw [chain_read] at h
  exact bind_eq_ok h

/-- What holds of the tokens left after each operand holds of those left after the chain. -/
theorem chainFrom_rest {p : List Token → Prop} {binds : Operation → Bool} {operand : Rule}
    {left reading : Reading} (h : chainFrom binds operand left = .ok reading) (hleft : p left.rest)
    (hoperand : ∀ tokens right, operand.read tokens = .ok right → p right.rest) :
    p reading.rest := by
  fun_induction chainFrom binds operand left with
  | case1 => cases h
  | case2 left operation tokens hrest hbinds right hread ih =>
    apply ih h
    rw [Reading.combine_rest]
    exact hoperand tokens right hread
  | case3 =>
    cases h
    exact hleft
  | case4 =>
    cases h
    exact hleft

/-- The tokens do not begin with an operator that the chain joins. -/
def Stops (binds : Operation → Bool) (tokens : List Token) : Prop :=
  ∀ operation rest, tokens = .symbol (.operator operation) :: rest → binds operation = false

theorem chainFrom_of_stops {binds : Operation → Bool} {operand : Rule} {left : Reading}
    (h : Stops binds left.rest) : chainFrom binds operand left = .ok left := by
  unfold chainFrom
  split
  · rename_i operation tokens hrest
    rw [if_neg (by simp [h operation tokens hrest])]
  · rfl

theorem chainFrom_of_binds {binds : Operation → Bool} {operand : Rule} {left : Reading}
    {operation : Operation} {tokens : List Token} (hbinds : binds operation = true)
    (hrest : left.rest = .symbol (.operator operation) :: tokens) :
    chainFrom binds operand left =
      (operand.read tokens).bind fun right =>
        chainFrom binds operand (left.combine operation right) := by
  rw [chainFrom]
  split
  · rename_i operation' tokens' hrest'
    rw [hrest] at hrest'
    cases hrest'
    rw [if_pos hbinds]
    split
    · rename_i hread
      rw [hread]
      rfl
    · rename_i hread
      rw [hread]
      rfl
  · rename_i hnone
    exact absurd hrest (hnone operation tokens)

theorem chainFrom_stops {binds : Operation → Bool} {operand : Rule} {left reading : Reading}
    (h : chainFrom binds operand left = .ok reading) : Stops binds reading.rest := by
  fun_induction chainFrom binds operand left with
  | case1 => cases h
  | case2 left operation tokens hrest hbinds right hread ih => exact ih h
  | case3 left operation tokens hrest hbinds =>
    cases h
    intro operation' rest' heq
    rw [hrest] at heq
    cases heq
    exact Bool.eq_false_iff.mpr hbinds
  | case4 left hnone =>
    cases h
    intro operation rest heq
    exact absurd heq (hnone operation rest)

theorem chain_stops {binds : Operation → Bool} {operand : Rule} {tokens : List Token}
    {reading : Reading} (h : (chain binds operand).read tokens = .ok reading) :
    Stops binds reading.rest := by
  obtain ⟨first, -, hchain⟩ := chain_read_eq_ok h
  exact chainFrom_stops hchain

/-- No operator at all follows an expression: its terms stop before products, and it stops before
sums. -/
theorem expression_stops {operand : Rule} {tokens : List Token} {reading : Reading}
    (h : (expression operand).read tokens = .ok reading) : Stops (fun _ => true) reading.rest := by
  obtain ⟨first, hfirst, hchain⟩ := chain_read_eq_ok h
  have hmultiplicative : Stops isMultiplicative reading.rest :=
    chainFrom_rest hchain (chain_stops hfirst) (fun _ _ hread => chain_stops hread)
  intro operation rest heq
  have hadditive := chain_stops h operation rest heq
  simp [isAdditive, hmultiplicative operation rest heq] at hadditive

theorem signed_read_minus (inner : Option Rule) (tokens : List Token) :
    (signed inner).read (.symbol (.operator .subtract) :: tokens) =
      match inner with
      | none => .error .tooDeep
      | some operand => (operand.read tokens).bind fun positive => .ok positive.negate := by
  cases inner with
  | none => rfl
  | some operand =>
    simp only [signed]
    cases operand.read tokens <;> rfl

theorem signed_read_of_ne_minus (inner : Option Rule) (tokens : List Token)
    (h : tokens.head? ≠ some (.symbol (.operator .subtract))) :
    (signed inner).read tokens = (primary inner).read tokens := by
  simp only [signed]
  split
  · simp at h
  · rfl

theorem signed_read_eq_ok {inner : Option Rule} {tokens : List Token} {reading : Reading}
    (h : (signed inner).read tokens = .ok reading) :
    (∃ operand rest positive, inner = some operand ∧
      tokens = .symbol (.operator .subtract) :: rest ∧ operand.read rest = .ok positive ∧
      reading = positive.negate) ∨
    (primary inner).read tokens = .ok reading := by
  by_cases hminus : tokens.head? = some (.symbol (.operator .subtract))
  · obtain ⟨rest, rfl⟩ := List.head?_eq_some_iff.mp hminus
    rw [signed_read_minus] at h
    cases inner with
    | none => cases h
    | some operand =>
      obtain ⟨positive, hread, heq⟩ := bind_eq_ok h
      cases heq
      exact Or.inl ⟨operand, rest, positive, rfl, rfl, hread, rfl⟩
  · rw [signed_read_of_ne_minus inner tokens hminus] at h
    exact Or.inr h

theorem primary_read_opening (inner : Option Rule) (tokens : List Token)
    (h : tokens.head? ≠ some (.symbol .closing)) :
    (primary inner).read (.symbol .opening :: tokens) =
      match inner with
      | none => .error .tooDeep
      | some operand => ((expression operand).read tokens).bind close := by
  simp only [primary]
  split
  · rename_i heq
    simp at heq
  · rename_i heq
    simp_all
  · rename_i rest _ heq
    cases heq
    cases inner with
    | none => rfl
    | some operand =>
      simp only
      cases (expression operand).read tokens <;> rfl
  · simp_all

theorem primary_read_of_ne_operand (inner : Option Rule) (tokens : List Token)
    (hnumber : ∀ value, tokens.head? ≠ some (.number value))
    (hopening : tokens.head? ≠ some (.symbol .opening)) :
    (primary inner).read tokens = .error .numberExpected := by
  simp only [primary]
  split <;> simp_all

theorem close_eq_ok {enclosed reading : Reading} (h : close enclosed = .ok reading) :
    enclosed.rest = .symbol .closing :: reading.rest ∧
      reading = { enclosed with rest := reading.rest } := by
  unfold close at h
  split at h
  · rename_i rest hrest
    cases h
    exact ⟨hrest, rfl⟩
  · cases h
  · cases h

theorem primary_read_eq_ok {inner : Option Rule} {tokens : List Token} {reading : Reading}
    (h : (primary inner).read tokens = .ok reading) :
    (∃ value rest, tokens = .number value :: rest ∧ reading = ⟨value, false, rest⟩) ∨
    ∃ operand rest enclosed, inner = some operand ∧ tokens = .symbol .opening :: rest ∧
      (expression operand).read rest = .ok enclosed ∧
      enclosed.rest = .symbol .closing :: reading.rest ∧
      reading = { enclosed with rest := reading.rest } := by
  match tokens with
  | [] => cases h
  | .number value :: rest =>
    cases h
    exact Or.inl ⟨value, rest, rfl, rfl⟩
  | .symbol .closing :: rest => cases h
  | .symbol (.operator _) :: rest => cases h
  | .symbol .opening :: rest =>
    by_cases hempty : rest.head? = some (.symbol .closing)
    · obtain ⟨after, rfl⟩ := List.head?_eq_some_iff.mp hempty
      cases h
    · rw [primary_read_opening inner rest hempty] at h
      cases inner with
      | none => cases h
      | some operand =>
        obtain ⟨enclosed, hread, hclose⟩ := bind_eq_ok h
        obtain ⟨hrest, heq⟩ := close_eq_ok hclose
        exact Or.inr ⟨operand, rest, enclosed, rfl, rfl, hread, hrest, heq⟩

end InfixArithmetic.RuleEquations
