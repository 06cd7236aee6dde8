import InfixArithmetic.Proofs.Procedures
import InfixArithmetic.Proofs.ReadingSentences

/-!
Procedures follow the rules that they stand for. What a procedure hands back is what its rule reads
from the tokens ahead of the cursor with the levels left there: the same fault, or the same value
with a cursor before the same rest and the same account of divisions by zero. Nothing before the
cursor matters, nor what was on record. Each procedure is compared with its rule on the condition
that those it calls follow theirs, and one induction on the calls allowed joins these steps.
-/
namespace InfixArithmetic.FollowedRules

open Binary64 Derivations Faults Grammar Procedures ReadingSentences RuleEquations Tokens

/-- The levels that lead further in from here. -/
def levels (cursor : Cursor) : Nat := maxDepth - cursor.depth

theorem levels_eq_of_keeps {before after : Cursor} (h : Keeps before after) :
    levels after = levels before :=
  congrArg (maxDepth - ·) h.depth

theorem levels_enter {cursor : Cursor} (h : ¬ maxDepth ≤ cursor.depth) :
    levels cursor.enter + 1 = levels cursor := by
  simp only [levels, Cursor.enter]
  omega

/-- How the rule of a routine reads with so many levels left. -/
def readOf (levels : Nat) : Routine → List Token → Except GrammarFault Reading
  | .rule category => (ruleOf levels category).read
  | .nested category =>
    match levels with
    | 0 => fun _ => .error .tooDeep
    | further + 1 => (ruleOf further category).read

theorem rest_of_next? {cursor : Cursor} {token : Token} (h : cursor.next? = some token) :
    cursor.rest = token :: cursor.forward.rest := by
  obtain ⟨hlt, htoken⟩ := List.getElem?_eq_some_iff.mp h
  rw [Cursor.rest, List.drop_eq_getElem_cons hlt, htoken]
  rfl

theorem next?_eq_head? (cursor : Cursor) : cursor.next? = cursor.rest.head? := by
  rw [Cursor.rest, List.head?_drop]
  rfl

theorem pass_of_next? {cursor : Cursor} {token : Token} (h : cursor.next? = some token) :
    cursor.pass = cursor.forward := by
  rw [Cursor.pass, h]
  rfl

/-- What is handed back is the value of the reading with the cursor after it, or the fault. -/
def Matches (before : Cursor) (outcome : Except GrammarFault Reading) (r : Return) : Prop :=
  match outcome with
  | .error fault => r.result = .error fault
  | .ok reading =>
    r.result = .ok reading.value ∧ r.after.rest = reading.rest ∧
      before.recordedSince r.after = reading.dividesByZero

theorem Matches.of_error {before after : Cursor} {outcome : Except GrammarFault Reading}
    {fault : GrammarFault} (h : Matches before outcome ⟨.error fault, after⟩) :
    outcome = .error fault := by
  cases outcome with
  | error fault' => rw [Except.error.inj h]
  | ok reading => cases h.1

theorem Matches.of_ok {before after : Cursor} {outcome : Except GrammarFault Reading}
    {value : Value} (h : Matches before outcome ⟨.ok value, after⟩) :
    outcome = .ok ⟨value, before.recordedSince after, after.rest⟩ := by
  cases outcome with
  | error fault => cases h
  | ok reading =>
    obtain ⟨hvalue, hrest, hrecorded⟩ := h
    rw [Except.ok.inj hvalue, hrecorded, hrest]

theorem matches_ok (before after : Cursor) (value : Value) :
    Matches before (.ok ⟨value, before.recordedSince after, after.rest⟩) ⟨.ok value, after⟩ :=
  ⟨rfl, rfl, rfl⟩

/-- Going on with what was handed back is going on with what was read. -/
theorem always_matches_andThen {before middle : Cursor} {outcome : Except GrammarFault Reading}
    {returned : Option Return} {f : Value → Cursor → Option Return}
    {g : Reading → Except GrammarFault Reading} (h : Always (Matches middle outcome) returned)
    (hgo : ∀ value after, returned = some ⟨.ok value, after⟩ →
      Always (Matches before (g ⟨value, middle.recordedSince after, after.rest⟩))
        (f value after)) :
    Always (Matches before (outcome.bind g)) (andThen returned f) := by
  match returned with
  | none => exact always_none _
  | some ⟨.error fault, after⟩ =>
    rw [(h _ rfl).of_error]
    exact always_some rfl
  | some ⟨.ok value, after⟩ =>
    rw [(h _ rfl).of_ok]
    exact hgo value after rfl

/-- With so many levels left, the procedure does what reading does. -/
def Follows (p : Procedure) (left : Nat) (read : List Token → Except GrammarFault Reading) : Prop :=
  ∀ cursor, levels cursor = left → Always (Matches cursor (read cursor.rest)) (p.call cursor)

theorem combine_eq (left right : Reading) (operation : Operation) :
    left.combine operation right =
      ⟨(Application.mk left.value operation right.value).value,
        left.dividesByZero || right.dividesByZero ||
          (Application.mk left.value operation right.value).dividesByZero, right.rest⟩ := by
  unfold Reading.combine Application.value Application.dividesByZero
  cases result? operation left.value right.value <;> simp

variable {left : Nat} {p inner : Procedure}

/-- The loop started at one cursor and has come to another. -/
theorem loop_matches {binds : Operation → Bool} {rule : Rule} (hp : Follows p left rule.read)
    {before : Cursor} (value : Value) (cursor : Cursor) (hleft : levels cursor = left)
    (hbefore : Keeps before cursor) :
    Always (Matches before
      (chainFrom binds rule ⟨value, before.recordedSince cursor, cursor.rest⟩))
      (loop binds p value cursor) := by
  fun_induction loop binds p value cursor with
  | case1 => exact always_none _
  | case2 value cursor operation hnext hbinds fault after hcall =>
    have hforward := levels_eq_of_keeps (keeps_forward hnext)
    have hread := (hp _ (hforward.trans hleft) _ hcall).of_error
    rw [chainFrom_of_binds hbinds (rest_of_next? hnext), hread]
    exact always_some rfl
  | case3 value cursor operation hnext hbinds right after hcall a ih =>
    have hforward := keeps_forward hnext
    have hcalled := p.keeps _ _ hcall
    have hafter := hforward.trans hcalled
    have hrecorded := hafter.trans (keeps_record after a)
    have hread := (hp _ ((levels_eq_of_keeps hforward).trans hleft) _ hcall).of_ok
    have hnow := ih ((levels_eq_of_keeps hrecorded).trans hleft) (hbefore.trans hrecorded)
    rw [recordedSince_trans hbefore.applied hrecorded.applied,
      recordedSince_trans hafter.applied (keeps_record after a).applied,
      recordedSince_record] at hnow
    rw [chainFrom_of_binds hbinds (rest_of_next? hnext), hread]
    change Always (Matches before (chainFrom binds rule (Reading.combine _ _ _))) _
    rw [combine_eq, Bool.or_assoc]
    exact hnow
  | case4 value cursor operation hnext hbinds =>
    have hstops : Stops binds cursor.rest := by
      intro operation' rest heq
      rw [rest_of_next? hnext] at heq
      cases heq
      exact Bool.eq_false_iff.mpr hbinds
    rw [chainFrom_of_stops hstops]
    exact always_some (matches_ok before cursor value)
  | case5 value cursor hnone =>
    have hstops : Stops binds cursor.rest := by
      intro operation rest heq
      apply absurd _ (hnone operation)
      rw [next?_eq_head?, heq]
      rfl
    rw [chainFrom_of_stops hstops]
    exact always_some (matches_ok before cursor value)

theorem chainOf_follows {binds : Operation → Bool} {rule : Rule} (hp : Follows p left rule.read) :
    Follows (chainOf binds p) left (chain binds rule).read := by
  intro cursor hleft
  rw [chain_read]
  apply always_matches_andThen (hp cursor hleft)
  intro value after hcall
  have hkeeps := p.keeps _ _ hcall
  exact loop_matches hp value after ((levels_eq_of_keeps hkeeps).trans hleft) hkeeps

/-- A minus leads one level further in. -/
theorem signed_read_of_minus (left : Nat) (tokens : List Token) :
    (signed (innerOperand? left)).read (.symbol (.operator .subtract) :: tokens) =
      (readOf left (.nested .unary) tokens).bind fun positive => .ok positive.negate := by
  rw [signed_read_minus]
  cases left <;> rfl

theorem unaryOf_follows (hinner : Follows inner left (readOf left (.nested .unary)))
    (hp : Follows p left (readOf left (.rule .primary))) :
    Follows (unaryOf inner p) left (readOf left (.rule .unary)) := by
  intro cursor hleft
  simp only [unaryOf, readOf, ruleOf, operand_eq]
  split
  · rename_i hnext
    have hforward := levels_eq_of_keeps (keeps_forward hnext)
    rw [rest_of_next? hnext, signed_read_of_minus]
    exact always_matches_andThen (hinner _ (hforward.trans hleft))
      (fun _ _ _ => always_some ⟨rfl, rfl, rfl⟩)
  · rename_i hnext
    rw [next?_eq_head?] at hnext
    rw [signed_read_of_ne_minus _ _ hnext]
    exact hp cursor hleft

/-- So does an opening parenthesis, unless it is closed at once. -/
theorem primary_read_of_opening (left : Nat) (tokens : List Token)
    (h : tokens.head? ≠ some (.symbol .closing)) :
    (primary (innerOperand? left)).read (.symbol .opening :: tokens) =
      (readOf left (.nested .sum) tokens).bind close := by
  rw [primary_read_opening _ _ h]
  cases left <;> rfl

theorem closeAt_matches (before cursor : Cursor) (value : Value) :
    Always (Matches before (close ⟨value, before.recordedSince cursor, cursor.rest⟩))
      (closeAt value cursor) := by
  have hnext := next?_eq_head? cursor
  match hrest : cursor.rest with
  | [] =>
    rw [hrest] at hnext
    simp only [closeAt, hnext, List.head?_nil, close]
    exact always_some rfl
  | .symbol .closing :: rest =>
    rw [hrest] at hnext
    have hpass := pass_of_next? hnext
    have hforward : cursor.forward.rest = rest := by
      rw [rest_of_next? hnext] at hrest
      exact (List.cons.inj hrest).2
    simp only [closeAt, hnext, List.head?_cons, close, hpass]
    exact always_some ⟨rfl, hforward, rfl⟩
  | .number _ :: rest | .symbol .opening :: rest | .symbol (.operator _) :: rest =>
    rw [hrest] at hnext
    simp only [closeAt, hnext, List.head?_cons, close]
    exact always_some rfl

theorem primaryOf_follows (hinner : Follows inner left (readOf left (.nested .sum))) :
    Follows (primaryOf inner) left (readOf left (.rule .primary)) := by
  intro cursor hleft
  simp only [primaryOf, readOf, ruleOf]
  split
  · rename_i value hnext
    rw [rest_of_next? hnext, pass_of_next? hnext]
    exact always_some ⟨rfl, rfl, recordedSince_self _⟩
  · rename_i hnext
    have hforward := keeps_forward hnext
    rw [rest_of_next? hnext, pass_of_next? hnext, next?_eq_head?]
    split
    · rename_i hclosing
      obtain ⟨rest, hrest⟩ := List.head?_eq_some_iff.mp hclosing
      rw [hrest]
      exact always_some rfl
    · rename_i hclosing
      rw [primary_read_of_opening _ _ hclosing]
      apply always_matches_andThen (hinner _ ((levels_eq_of_keeps hforward).trans hleft))
      exact fun value after _ => closeAt_matches cursor after value
  · rename_i hnumber hopening
    rw [next?_eq_head?] at hnumber hopening
    rw [primary_read_of_ne_operand _ _ hnumber hopening]
    exact always_some rfl

theorem nestedOf_follows {category : Category}
    (hp : ∀ further, Follows p further (readOf further (.rule category))) :
    Follows (nestedOf p) left (readOf left (.nested category)) := by
  intro cursor hleft
  simp only [nestedOf]
  split
  · rename_i hdepth
    obtain rfl : left = 0 := hleft.symm.trans (Nat.sub_eq_zero_of_le hdepth)
    exact always_some rfl
  · rename_i hdepth
    obtain rfl := (levels_enter hdepth).trans hleft
    intro _ hr
    obtain ⟨r, hcall, rfl⟩ := Option.map_eq_some_iff.mp hr
    exact hp _ _ rfl r hcall

/-- Whatever a procedure hands back is what its rule reads, however many calls are allowed. -/
theorem procedure_follows (calls : Nat) (routine : Routine) (left : Nat) :
    Follows (procedure calls routine) left (readOf left routine) := by
  induction calls generalizing routine left with
  | zero => exact fun _ _ => always_none _
  | succ calls ih =>
    match routine with
    | .rule (.chain precedence) =>
      simp only [readOf, ruleOf_chain]
      exact chainOf_follows (ih (.rule precedence.operand) left)
    | .rule .unary => exact unaryOf_follows (ih _ left) (ih _ left)
    | .rule .primary => exact primaryOf_follows (ih _ left)
    | .nested category => exact nestedOf_follows (ih (.rule category))

end InfixArithmetic.FollowedRules
