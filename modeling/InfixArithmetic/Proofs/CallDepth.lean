import InfixArithmetic.Proofs.FollowedRules

/-!
Calls nest no deeper than levels allow. A procedure hands something back if it is allowed five calls
inside one another for every level left and those of its own level, so one limit serves all tokens,
however many there are: a chain goes on in a loop and not by another call. Within that limit the
procedures compute what evaluation computes. Opening parentheses alone use it up.
-/
namespace InfixArithmetic.CallDepth

open Binary64 Derivations Evaluation Faults FollowedRules Grammar PendingOpeners Procedures
  ReadingSentences Tokens

variable {left : Nat} {p inner : Procedure}

/-- With so many levels left, the procedure hands something back. -/
def Returns (p : Procedure) (left : Nat) : Prop :=
  ∀ cursor, levels cursor = left → p.call cursor ≠ none

theorem andThen_ne_none {returned : Option Return} {f : Value → Cursor → Option Return}
    (h : returned ≠ none)
    (hf : ∀ value after, returned = some ⟨.ok value, after⟩ → f value after ≠ none) :
    andThen returned f ≠ none := by
  match returned with
  | none => exact absurd rfl h
  | some ⟨.error fault, after⟩ => exact Option.some_ne_none _
  | some ⟨.ok value, after⟩ => exact hf value after rfl

theorem loop_ne_none (binds : Operation → Bool) (hp : Returns p left) (value : Value)
    (cursor : Cursor) (hleft : levels cursor = left) : loop binds p value cursor ≠ none := by
  fun_induction loop binds p value cursor with
  | case1 value cursor operation hnext hbinds hcall =>
    have hforward := levels_eq_of_keeps (keeps_forward hnext)
    exact absurd hcall (hp _ (hforward.trans hleft))
  | case2 => exact Option.some_ne_none _
  | case3 value cursor operation hnext hbinds right after hcall a ih =>
    have hafter := (keeps_forward hnext).trans (p.keeps _ _ hcall)
    have hrecorded := hafter.trans (keeps_record after a)
    exact ih ((levels_eq_of_keeps hrecorded).trans hleft)
  | case4 => exact Option.some_ne_none _
  | case5 => exact Option.some_ne_none _

theorem chainOf_returns (binds : Operation → Bool) (hp : Returns p left) :
    Returns (chainOf binds p) left := by
  intro cursor hleft
  apply andThen_ne_none (hp cursor hleft)
  intro value after hcall
  exact loop_ne_none binds hp value after
    ((levels_eq_of_keeps (p.keeps _ _ hcall)).trans hleft)

theorem unaryOf_returns (hinner : Returns inner left) (hp : Returns p left) :
    Returns (unaryOf inner p) left := by
  intro cursor hleft
  simp only [unaryOf]
  split
  · rename_i hnext
    have hforward := levels_eq_of_keeps (keeps_forward hnext)
    exact andThen_ne_none (hinner _ (hforward.trans hleft)) (fun _ _ _ => Option.some_ne_none _)
  · exact hp cursor hleft

theorem closeAt_ne_none (value : Value) (cursor : Cursor) : closeAt value cursor ≠ none := by
  unfold closeAt
  split <;> exact Option.some_ne_none _

theorem primaryOf_returns (hinner : Returns inner left) : Returns (primaryOf inner) left := by
  intro cursor hleft
  have hpass := levels_eq_of_keeps (keeps_pass cursor)
  simp only [primaryOf]
  split
  · exact Option.some_ne_none _
  · split
    · exact Option.some_ne_none _
    · exact andThen_ne_none (hinner _ (hpass.trans hleft)) (fun _ _ _ => closeAt_ne_none _ _)
  · exact Option.some_ne_none _

/-- The rule is called with one level less, and not at all without one. -/
theorem nestedOf_returns (hp : ∀ further, further + 1 = left → Returns p further) :
    Returns (nestedOf p) left := by
  intro cursor hleft
  simp only [nestedOf]
  split
  · exact Option.some_ne_none _
  · rename_i hdepth
    have hlevels := levels_enter hdepth
    rw [ne_eq, Option.map_eq_none_iff]
    exact hp _ (hlevels.trans hleft) _ rfl

/-- The calls inside one another that a routine makes at the level at hand, its own included. -/
def ownCalls : Routine → Nat
  | .rule (.chain .additive) => 5
  | .rule (.chain .multiplicative) => 4
  | .rule .unary => 3
  | .rule .primary => 2
  | .nested _ => 1

theorem ownCalls_le (category : Category) : ownCalls (.rule category) ≤ 5 := by
  match category with
  | .chain .additive | .chain .multiplicative | .unary | .primary => decide

/-- Five calls suffice for every level further in. -/
theorem procedure_returns (calls : Nat) (routine : Routine) (left : Nat)
    (h : 5 * left + ownCalls routine ≤ calls) : Returns (procedure calls routine) left := by
  induction calls generalizing routine left with
  | zero =>
    match routine with
    | .rule (.chain .additive) | .rule (.chain .multiplicative) | .rule .unary | .rule .primary
    | .nested _ => simp [ownCalls] at h
  | succ calls ih =>
    match routine with
    | .rule (.chain .additive) | .rule (.chain .multiplicative) =>
      exact chainOf_returns _ (ih _ left (Nat.le_of_succ_le_succ h))
    | .rule .unary =>
      have hcalls : 5 * left + 2 ≤ calls := Nat.le_of_succ_le_succ h
      exact unaryOf_returns (ih _ left (Nat.le_of_succ_le hcalls)) (ih _ left hcalls)
    | .rule .primary => exact primaryOf_returns (ih _ left (Nat.le_of_succ_le_succ h))
    | .nested category =>
      apply nestedOf_returns
      rintro further rfl
      have hown := ownCalls_le category
      apply ih
      simp only [ownCalls] at h
      omega

/-- The calls inside one another that suffice for any tokens. -/
def callLimit : Nat := 5 * (maxDepth + 1)

/-- Any rule hands back what it reads if it is allowed as many calls as the limit. -/
theorem exists_return (extra : Nat) (category : Category) (cursor : Cursor) :
    ∃ r, (procedure (callLimit + extra) (.rule category)).call cursor = some r ∧
      Matches cursor ((ruleOf (levels cursor) category).read cursor.rest) r := by
  have hcalls : 5 * levels cursor + ownCalls (.rule category) ≤ callLimit + extra := by
    have hlevels : levels cursor ≤ maxDepth := Nat.sub_le _ _
    have hown : ownCalls (.rule category) ≤ 5 := ownCalls_le category
    unfold callLimit
    omega
  obtain ⟨r, hr⟩ := Option.ne_none_iff_exists'.mp
    (procedure_returns _ (.rule category) (levels cursor) hcalls cursor rfl)
  exact ⟨r, hr, procedure_follows _ (.rule category) _ cursor rfl r hr⟩

theorem conclude_eq {tokens : List Token} {reading : Reading} {after : Cursor}
    (hread : (expression (operand maxDepth)).read tokens = .ok reading)
    (hrest : after.rest = reading.rest) (hflag : after.dividesByZero = reading.dividesByZero) :
    conclude reading.value after = evaluateTokens tokens := by
  unfold conclude evaluateTokens readAll
  rw [next?_eq_head?, hrest, hflag, hread]
  match hreading : reading.rest with
  | [] | .number _ :: _ | .symbol .opening :: _ | .symbol .closing :: _
  | .symbol (.operator _) :: _ => simp [hreading]

/-- Calls within a limit that is the same for all tokens read and compute them, well formed or not,
as evaluation does. -/
theorem runWithin_callLimit (extra : Nat) (tokens : List Token) :
    runWithin (callLimit + extra) tokens = some (evaluateTokens tokens) := by
  obtain ⟨r, hcall, hmatches⟩ := exists_return extra .sum (.start tokens)
  have hkeeps := Procedure.keeps _ _ _ hcall
  rw [runWithin, hcall, Option.map_some]
  congr 1
  change Matches _ ((expression (operand maxDepth)).read tokens) r at hmatches
  cases hread : (expression (operand maxDepth)).read tokens with
  | error fault =>
    rw [hread] at hmatches
    rw [show r.result = .error fault from hmatches]
    exact (evaluateTokens_of_readAll_error (by rw [readAll, hread])).symm
  | ok reading =>
    rw [hread] at hmatches
    obtain ⟨hvalue, hrest, hrecorded⟩ := hmatches
    have hflag : r.after.dividesByZero = reading.dividesByZero := by
      rw [hkeeps.dividesByZero, hrecorded]
      exact Bool.false_or _
    rw [hvalue]
    exact conclude_eq hread hrest hflag

/-- More opening parentheses are ahead than levels lead further in. -/
def Overflows (cursor : Cursor) (count : Nat) : Routine → Prop
  | .rule _ => levels cursor < count
  | .nested category => category = .sum ∧ levels cursor ≤ count

theorem next?_ne_of_openings {cursor : Cursor} {count : Nat} {token : Token}
    (hrest : cursor.rest = List.replicate count (.symbol .opening))
    (h : token ≠ .symbol .opening) : cursor.next? ≠ some token := by
  rw [next?_eq_head?, hrest, List.head?_replicate]
  split
  · exact (Option.some_ne_none token).symm
  · exact fun heq => h (Option.some.inj heq).symm

/-- They take a call at every step of every level, and then one more. -/
theorem call_openings_eq_none (calls : Nat) (routine : Routine) (cursor : Cursor) (count : Nat)
    (hrest : cursor.rest = List.replicate count (.symbol .opening))
    (hcount : Overflows cursor count routine)
    (hcalls : calls < 5 * levels cursor + ownCalls routine) :
    (procedure calls routine).call cursor = none := by
  induction calls generalizing routine cursor count with
  | zero => rfl
  | succ calls ih =>
    match routine with
    | .rule (.chain p) =>
      have hoperand : (procedure calls (.rule p.operand)).call cursor = none := by
        apply ih (.rule p.operand) cursor count hrest hcount
        cases p <;> exact Nat.lt_of_succ_lt_succ hcalls
      simp only [procedure, chainOf, hoperand, andThen]
    | .rule .unary =>
      have hminus : cursor.next? ≠ some (.symbol (.operator .subtract)) :=
        next?_ne_of_openings hrest (by decide)
      simp only [procedure, unaryOf, if_neg hminus]
      exact ih (.rule .primary) cursor count hrest hcount (Nat.lt_of_succ_lt_succ hcalls)
    | .rule .primary =>
      obtain ⟨further, rfl⟩ := Nat.exists_eq_add_one_of_ne_zero (Nat.ne_zero_of_lt hcount)
      have hnext : cursor.next? = some (.symbol .opening) := by
        rw [next?_eq_head?, hrest, List.replicate_succ, List.head?_cons]
      have hforward : cursor.forward.rest = List.replicate further (.symbol .opening) := by
        rw [rest_of_next? hnext, List.replicate_succ] at hrest
        exact (List.cons.inj hrest).2
      have hclosing : cursor.forward.next? ≠ some (.symbol .closing) :=
        next?_ne_of_openings hforward (by decide)
      have hlevels := levels_eq_of_keeps (keeps_forward hnext)
      have hinner : (procedure calls (.nested .sum)).call cursor.forward = none := by
        apply ih (.nested .sum) cursor.forward further hforward
        · exact ⟨rfl, hlevels ▸ Nat.le_of_lt_succ hcount⟩
        · rw [hlevels]
          exact Nat.lt_of_succ_lt_succ hcalls
      simp only [procedure, primaryOf, hnext, pass_of_next? hnext, if_neg hclosing, hinner, andThen]
    | .nested category =>
      obtain ⟨rfl, hle⟩ := hcount
      simp only [ownCalls] at hcalls
      have hdepth : ¬ maxDepth ≤ cursor.depth := by
        unfold levels at hcalls
        omega
      have hlevels := levels_enter hdepth
      simp only [procedure, nestedOf, if_neg hdepth, Option.map_eq_none_iff]
      apply ih (.rule .sum) cursor.enter count hrest
      · change levels cursor.enter < count
        omega
      · simp only [ownCalls]
        omega

/-- No lower limit would do for all tokens. -/
theorem runWithin_openings {calls : Nat} (h : calls < callLimit) :
    runWithin calls (List.replicate (maxDepth + 1) (.symbol .opening)) = none := by
  rw [runWithin, Option.map_eq_none_iff]
  exact call_openings_eq_none calls (.rule .sum) _ (maxDepth + 1) rfl
    (Nat.lt_succ_self maxDepth) h

end InfixArithmetic.CallDepth
