import InfixArithmetic.Proofs.CallDepth

/-!
What a call changes and what it depends on. Whether it succeeds or fails, it leaves the tokens and
the depth as it found them, moves the cursor forward within the tokens and does not take back the
record of a division by zero. What it hands back depends only on the tokens not read yet and on the
depth, and a call that succeeds reads at least one token and stops where its rule cannot go on.
-/
namespace InfixArithmetic.CallEffects

open Binary64 CallDepth Derivations Faults FollowedRules Grammar Procedures ReadingSentences
  RuleEquations Tokens

/-- Two cursors with the same tokens ahead, at the same depth. -/
structure SameAhead (a b : Cursor) : Prop where
  rest : a.rest = b.rest
  depth : a.depth = b.depth

/-- How far the cursor moved on the way to a later one. -/
def consumed (before after : Cursor) : Nat := after.position - before.position

theorem length_rest (cursor : Cursor) :
    cursor.rest.length = cursor.tokens.length - cursor.position :=
  List.length_drop

theorem consumed_eq {before after : Cursor} (h : Keeps before after)
    (hposition : before.position ≤ before.tokens.length) :
    consumed before after = before.rest.length - after.rest.length := by
  have hafter := h.position_le_length hposition
  have hle := h.position_le
  rw [consumed, length_rest, length_rest, h.tokens]
  omega

theorem position_lt_of_length_rest_lt {before after : Cursor} (h : Keeps before after)
    (hlt : after.rest.length < before.rest.length) : before.position < after.position := by
  rw [length_rest, length_rest, h.tokens] at hlt
  omega

theorem ruleOf_stops {left : Nat} {p : Precedence} {tokens : List Token} {reading : Reading}
    (h : (ruleOf left (.chain p)).read tokens = .ok reading) :
    Stops (Category.chain p).goesOn reading.rest := by
  cases p with
  | additive => exact expression_stops h
  | multiplicative => exact chain_stops h

theorem next?_ne_of_stops {binds : Operation → Bool} {cursor : Cursor} {operation : Operation}
    (h : Stops binds cursor.rest) (hbinds : binds operation = true) :
    cursor.next? ≠ some (.symbol (.operator operation)) := by
  intro hnext
  rw [h operation _ (rest_of_next? hnext)] at hbinds
  cases hbinds

/-- A successful call has read a token, and its rule does not go on with the next one. -/
structure Advances (category : Category) (before after : Cursor) : Prop where
  position_lt : before.position < after.position
  sum_ends : category = .sum → ∀ operation, after.next? ≠ some (.symbol (.operator operation))
  product_ends : category = .product → after.next? ≠ some (.symbol (.operator .multiply)) ∧
    after.next? ≠ some (.symbol (.operator .divide))

theorem advances_of_read {left : Nat} {category : Category} {before after : Cursor}
    {reading : Reading} (h : Keeps before after)
    (hread : (ruleOf left category).read before.rest = .ok reading)
    (hrest : after.rest = reading.rest) : Advances category before after where
  position_lt := by
    have hconsumes := (ruleOf left category).consumes _ _ hread
    rw [← hrest] at hconsumes
    exact position_lt_of_length_rest_lt h hconsumes
  sum_ends := by
    rintro rfl operation
    have hstops := ruleOf_stops hread
    rw [← hrest] at hstops
    exact next?_ne_of_stops hstops rfl
  product_ends := by
    rintro rfl
    have hstops := ruleOf_stops hread
    rw [← hrest] at hstops
    exact ⟨next?_ne_of_stops hstops rfl, next?_ne_of_stops hstops rfl⟩

/-- Two calls that read the same tokens with the same levels left hand back the same. -/
theorem same_of_matches {a b : Cursor} {r r' : Return} {outcome : Except GrammarFault Reading}
    (hr : Matches a outcome r) (hr' : Matches b outcome r') :
    r'.result = r.result ∧ ∀ value, r.result = .ok value →
      r'.after.rest = r.after.rest ∧ b.recordedSince r'.after = a.recordedSince r.after := by
  cases outcome with
  | error fault => exact ⟨hr'.trans hr.symm, fun value h => by rw [hr] at h; cases h⟩
  | ok reading =>
    obtain ⟨hvalue, hrest, hrecorded⟩ := hr
    obtain ⟨hvalue', hrest', hrecorded'⟩ := hr'
    exact ⟨hvalue'.trans hvalue.symm,
      fun _ _ => ⟨hrest'.trans hrest.symm, hrecorded'.trans hrecorded.symm⟩⟩

/-- Every call hands back what its rule reads there, leaves the tokens and the depth as they were,
does not move back or out of the tokens and does not clear the record. If it succeeds it advances. A
call elsewhere with the same tokens ahead at the same depth has the same result, and if that is a
value it consumes as many tokens and carries out a division by zero or none alike. -/
theorem call_effects (extra : Nat) (category : Category) (cursor : Cursor)
    (hposition : cursor.position ≤ cursor.tokens.length) :
    ∃ r, (procedure (callLimit + extra) (.rule category)).call cursor = some r ∧
      Matches cursor ((ruleOf (levels cursor) category).read cursor.rest) r ∧
      r.after.tokens = cursor.tokens ∧ r.after.depth = cursor.depth ∧
      cursor.position ≤ r.after.position ∧ r.after.position ≤ cursor.tokens.length ∧
      (cursor.dividesByZero = true → r.after.dividesByZero = true) ∧
      (∀ value, r.result = .ok value → Advances category cursor r.after) ∧
      ∀ other, SameAhead other cursor → other.position ≤ other.tokens.length →
        ∃ r', (procedure (callLimit + extra) (.rule category)).call other = some r' ∧
          r'.result = r.result ∧
          ∀ value, r.result = .ok value →
            consumed other r'.after = consumed cursor r.after ∧
            other.recordedSince r'.after = cursor.recordedSince r.after := by
  obtain ⟨r, hcall, hmatches⟩ := exists_return extra category cursor
  have hkeeps := Procedure.keeps _ _ _ hcall
  refine ⟨r, hcall, hmatches, hkeeps.tokens, hkeeps.depth, hkeeps.position_le,
    hkeeps.position_le_length hposition, fun hflag => ?_, fun value hvalue => ?_,
    fun other hsame hother => ?_⟩
  · rw [hkeeps.dividesByZero, hflag]
    rfl
  · obtain ⟨result, after⟩ := r
    obtain rfl : result = .ok value := hvalue
    exact advances_of_read hkeeps hmatches.of_ok rfl
  · obtain ⟨r', hcall', hmatches'⟩ := exists_return extra category other
    have hkeeps' := Procedure.keeps _ _ _ hcall'
    have hlevels : levels other = levels cursor := congrArg (maxDepth - ·) hsame.depth
    rw [hlevels, hsame.rest] at hmatches'
    obtain ⟨hresult, hok⟩ := same_of_matches hmatches hmatches'
    refine ⟨r', hcall', hresult, fun value hvalue => ?_⟩
    obtain ⟨hrest, hrecorded⟩ := hok value hvalue
    refine ⟨?_, hrecorded⟩
    rw [consumed_eq hkeeps' hother, consumed_eq hkeeps hposition, hsame.rest, hrest]

/-- Zero by zero before a parenthesis, at the last level but one. -/
def quotient : Cursor :=
  ⟨[.number .zero, .symbol (.operator .divide), .number .zero, .symbol .closing], 0, 255, false, []⟩

/-- The same after an opening parenthesis, where a division by zero is on record already. -/
def enclosedQuotient : Cursor :=
  ⟨[.symbol .opening, .number .zero, .symbol (.operator .divide), .number .zero, .symbol .closing],
    1, 255, true, [⟨.zero, .divide, .zero⟩]⟩

theorem call_effects_quotient :
    SameAhead enclosedQuotient quotient ∧
    ∃ r r', (procedure callLimit (.rule .product)).call quotient = some r ∧
      (procedure callLimit (.rule .product)).call enclosedQuotient = some r' ∧
      r.result = .ok .nan ∧ r'.result = .ok .nan ∧ r'.after.dividesByZero = true ∧
      Advances .product quotient r.after ∧
      consumed enclosedQuotient r'.after = consumed quotient r.after ∧
      enclosedQuotient.recordedSince r'.after = quotient.recordedSince r.after := by
  have hsame : SameAhead enclosedQuotient quotient := ⟨rfl, rfl⟩
  have hresult : ((procedure callLimit (.rule .product)).call quotient).map Return.result =
      some (.ok .nan) := by decide +kernel
  obtain ⟨r, hcall, -, -, -, -, -, -, hadvances, hother⟩ :=
    call_effects 0 .product quotient (by decide)
  obtain ⟨r', hcall', hequal, hok⟩ := hother enclosedQuotient hsame (by decide)
  obtain ⟨r'', hcall'', -, -, -, -, -, hflag, -, -⟩ :=
    call_effects 0 .product enclosedQuotient (by decide)
  obtain rfl : r' = r'' := Option.some.inj (hcall'.symm.trans hcall'')
  have hvalue : r.result = .ok .nan := by
    rw [Nat.add_zero] at hcall
    rw [hcall] at hresult
    exact Option.some.inj hresult
  exact ⟨hsame, r, r', hcall, hcall', hvalue, hequal.trans hvalue, hflag rfl,
    hadvances .nan hvalue, hok .nan hvalue⟩

end InfixArithmetic.CallEffects
