import InfixArithmetic.Evaluation
import InfixArithmetic.Proofs.RuleEquations

/-!
A grammar fault can be found without computing anything, in one pass over the tokens that keeps a
stack of the minuses and parentheses still pending. Reading an expression by its rules meets the
same fault: each rule takes the pass from the place before an operand to the place after it and
leaves the stack as it was, apart from the minuses that end with the operand.
-/
namespace InfixArithmetic.PendingOpeners

open Binary64 Evaluation Faults Grammar RuleEquations Tokens

inductive Opener where
  | minus
  | parenthesis
deriving DecidableEq

/-- Whether an operand is expected, or one has just ended. -/
inductive Place where
  | beforeOperand
  | afterOperand
deriving DecidableEq

/-- The latest opener stands first. -/
structure State where
  place : Place
  openers : List Opener
deriving DecidableEq

/-- What is pending after an operand, with which the minuses directly before it end. -/
def dropMinuses (openers : List Opener) : List Opener := openers.dropWhile (· == .minus)

/-- Makes room for another opener unless so many are pending as there are levels. -/
def push (opener : Opener) (openers : List Opener) : Except GrammarFault State :=
  if openers.length < maxDepth then .ok ⟨.beforeOperand, opener :: openers⟩ else .error .tooDeep

/-- Takes an operand's first token, or an opener before it; `next` is the token after that. -/
def expect (openers : List Opener) (next : Option Token) : Token → Except GrammarFault State
  | .number _ => .ok ⟨.afterOperand, dropMinuses openers⟩
  | .symbol (.operator .subtract) => push .minus openers
  | .symbol .opening =>
    if next = some (.symbol .closing) then .error .emptyParentheses else push .parenthesis openers
  | _ => .error .numberExpected

/-- Takes the token after an operand. What is pending there is a parenthesis if anything. -/
def resume (openers : List Opener) : Token → Except GrammarFault State
  | .symbol (.operator _) => .ok ⟨.beforeOperand, openers⟩
  | .symbol .closing =>
    match openers with
    | [] => .error .unbalancedParentheses
    | _ :: outer => .ok ⟨.afterOperand, dropMinuses outer⟩
  | _ => .error .operationExpected

namespace State

def step (state : State) (next : Option Token) (token : Token) : Except GrammarFault State :=
  match state.place with
  | .beforeOperand => expect state.openers next token
  | .afterOperand => resume state.openers token

/-- Judges the end of the tokens. -/
def finish (state : State) : Except GrammarFault Unit :=
  match state.place with
  | .beforeOperand => .error .numberExpected
  | .afterOperand => if state.openers = [] then .ok () else .error .unbalancedParentheses

/-- Takes all tokens from left to right and stops at the first fault. -/
def run (state : State) : List Token → Except GrammarFault Unit
  | [] => state.finish
  | token :: rest =>
    match state.step rest.head? token with
    | .error fault => .error fault
    | .ok after => after.run rest

/-- Nothing is pending and an operand is expected. -/
def initial : State := ⟨.beforeOperand, []⟩

end State

/-- Going on from before an operand is reading by the rule and going on from after what it read. -/
def Follows (rule : Rule) (openers : List Opener) : Prop :=
  ∀ tokens, (State.mk .beforeOperand openers).run tokens =
    (rule.read tokens).bind fun reading =>
      (State.mk .afterOperand (dropMinuses openers)).run reading.rest

theorem run_rest_chainFrom (binds : Operation → Bool) (operand : Rule) (openers : List Opener)
    (hclear : dropMinuses openers = openers) (hoperand : Follows operand openers)
    (left : Reading) :
    (State.mk .afterOperand openers).run left.rest =
      (chainFrom binds operand left).bind fun reading =>
        (State.mk .afterOperand openers).run reading.rest := by
  fun_induction chainFrom binds operand left with
  | case1 left operation tokens hrest hbinds fault hread =>
    rw [hrest]
    change (State.mk .beforeOperand openers).run tokens = _
    rw [hoperand, hread]
    rfl
  | case2 left operation tokens hrest hbinds right hread ih =>
    rw [Reading.combine_rest] at ih
    rw [hrest, ← ih]
    change (State.mk .beforeOperand openers).run tokens = _
    rw [hoperand, hread, hclear]
    rfl
  | case3 => rfl
  | case4 => rfl

theorem chain_follows (binds : Operation → Bool) (operand : Rule) (openers : List Opener)
    (hclear : dropMinuses openers = openers) (hoperand : Follows operand openers) :
    Follows (chain binds operand) openers := by
  intro tokens
  rw [hoperand tokens, chain_read, hclear]
  cases operand.read tokens with
  | error fault => rfl
  | ok first => exact run_rest_chainFrom binds operand openers hclear hoperand first

theorem expression_follows (operand : Rule) (openers : List Opener)
    (hclear : dropMinuses openers = openers) (hoperand : Follows operand openers) :
    Follows (expression operand) openers :=
  chain_follows _ _ openers hclear (chain_follows _ _ openers hclear hoperand)

/-- The end of an expression in parentheses, which no operator follows. -/
theorem run_rest_close (openers : List Opener) (enclosed : Reading)
    (hstops : Stops (fun _ => true) enclosed.rest) :
    (State.mk .afterOperand (.parenthesis :: openers)).run enclosed.rest =
      (close enclosed).bind fun reading =>
        (State.mk .afterOperand (dropMinuses openers)).run reading.rest := by
  unfold close
  split
  · rename_i rest hrest
    rw [hrest]
    rfl
  · rename_i hrest
    rw [hrest]
    rfl
  · rename_i hclosing hnil
    cases hrest : enclosed.rest with
    | nil => exact absurd hrest hnil
    | cons token rest =>
      match token with
      | .number _ => rfl
      | .symbol .opening => rfl
      | .symbol .closing => exact absurd hrest (hclosing rest)
      | .symbol (.operator operation) => simpa using hstops operation rest hrest

/-- There is a rule one level further in exactly while another opener may be pending, and it can
then be followed behind any opener. -/
def InnerFollows (inner : Option Rule) (openers : List Opener) : Prop :=
  match inner with
  | none => ¬ openers.length < maxDepth
  | some operand => openers.length < maxDepth ∧ ∀ opener, Follows operand (opener :: openers)

theorem push_eq (inner : Option Rule) (openers : List Opener)
    (hinner : InnerFollows inner openers) (opener : Opener) :
    push opener openers =
      match inner with
      | none => .error .tooDeep
      | some _ => .ok ⟨.beforeOperand, opener :: openers⟩ := by
  cases inner with
  | none => exact if_neg hinner
  | some operand => exact if_pos hinner.1

theorem run_minus (openers : List Opener) (tokens : List Token) :
    (State.mk .beforeOperand openers).run (.symbol (.operator .subtract) :: tokens) =
      (push .minus openers).bind fun state => state.run tokens := by
  simp only [State.run, State.step, expect]
  cases push .minus openers <;> rfl

theorem run_opening (openers : List Opener) (tokens : List Token)
    (h : tokens.head? ≠ some (.symbol .closing)) :
    (State.mk .beforeOperand openers).run (.symbol .opening :: tokens) =
      (push .parenthesis openers).bind fun state => state.run tokens := by
  simp only [State.run, State.step, expect, if_neg h]
  cases push .parenthesis openers <;> rfl

/-- A primary begins with anything but a minus. -/
theorem run_primary (inner : Option Rule) (openers : List Opener)
    (hinner : InnerFollows inner openers) (tokens : List Token)
    (hminus : tokens.head? ≠ some (.symbol (.operator .subtract))) :
    (State.mk .beforeOperand openers).run tokens =
      ((primary inner).read tokens).bind fun reading =>
        (State.mk .afterOperand (dropMinuses openers)).run reading.rest := by
  match tokens with
  | [] => rfl
  | .number _ :: rest => rfl
  | .symbol .closing :: rest => rfl
  | .symbol (.operator operation) :: rest =>
    cases operation with
    | subtract => simp at hminus
    | add => rfl
    | multiply => rfl
    | divide => rfl
  | .symbol .opening :: rest =>
    by_cases hempty : rest.head? = some (.symbol .closing)
    · obtain ⟨after, rfl⟩ := List.head?_eq_some_iff.mp hempty
      rfl
    · rw [run_opening openers rest hempty, primary_read_opening inner rest hempty,
        push_eq inner openers hinner]
      cases inner with
      | none => rfl
      | some operand =>
        have hfollows := expression_follows operand (.parenthesis :: openers) rfl
          (hinner.2 .parenthesis) rest
        change (State.mk .beforeOperand (.parenthesis :: openers)).run rest =
          (((expression operand).read rest).bind close).bind _
        rw [hfollows]
        cases hread : (expression operand).read rest with
        | error fault => rfl
        | ok enclosed => exact run_rest_close openers enclosed (expression_stops hread)

theorem signed_follows (inner : Option Rule) (openers : List Opener)
    (hinner : InnerFollows inner openers) : Follows (signed inner) openers := by
  intro tokens
  by_cases hminus : tokens.head? = some (.symbol (.operator .subtract))
  · obtain ⟨rest, rfl⟩ := List.head?_eq_some_iff.mp hminus
    rw [run_minus, signed_read_minus, push_eq inner openers hinner]
    cases inner with
    | none => rfl
    | some operand =>
      change (State.mk .beforeOperand (.minus :: openers)).run rest =
        ((operand.read rest).bind fun positive => .ok positive.negate).bind _
      rw [hinner.2 .minus rest]
      cases operand.read rest <;> rfl
  · rw [signed_read_of_ne_minus inner tokens hminus]
    exact run_primary inner openers hinner tokens hminus

/-- The levels that are left are those that the pending openers do not take. -/
theorem operand_follows (levels : Nat) (openers : List Opener)
    (hlevels : openers.length + levels = maxDepth) : Follows (operand levels) openers := by
  induction levels generalizing openers with
  | zero =>
    apply signed_follows none openers
    change ¬ openers.length < maxDepth
    omega
  | succ levels ih =>
    apply signed_follows (some (operand levels)) openers
    refine ⟨by omega, fun opener => ih (opener :: openers) ?_⟩
    simp only [List.length_cons]
    omega

/-- The pass over all tokens ends as reading them does. -/
theorem run_initial (tokens : List Token) :
    State.initial.run tokens = (readAll tokens).bind fun _ => .ok () := by
  have hfollows := expression_follows (operand maxDepth) [] rfl
    (operand_follows maxDepth [] (Nat.zero_add _)) tokens
  unfold State.initial readAll
  rw [hfollows]
  cases hread : (expression (operand maxDepth)).read tokens with
  | error fault => rfl
  | ok reading =>
    simp only [Except.bind]
    match hrest : reading.rest with
    | [] => rfl
    | .number _ :: rest => rfl
    | .symbol .opening :: rest => rfl
    | .symbol .closing :: rest => rfl
    | .symbol (.operator operation) :: rest =>
      simpa using expression_stops hread operation rest hrest

/-- The outcomes of tokens that are an expression. -/
def IsAnswer (outcome : Except EvaluationFault Value) : Prop :=
  (∃ value, outcome = .ok value) ∨ outcome = .error .divisionByZero ∨ outcome = .error .outOfRange

theorem evaluateTokens_of_readAll_error {tokens : List Token} {fault : GrammarFault}
    (h : readAll tokens = .error fault) :
    evaluateTokens tokens = .error (.ungrammatical fault) := by
  simp only [evaluateTokens, h]

theorem isAnswer_of_readAll_ok {tokens : List Token} {reading : Reading}
    (h : readAll tokens = .ok reading) : IsAnswer (evaluateTokens tokens) := by
  simp only [evaluateTokens, h]
  split
  · exact Or.inr (Or.inl rfl)
  · split
    · exact Or.inl ⟨_, rfl⟩
    · exact Or.inr (Or.inr rfl)

/-- Evaluation reports the first fault that the pass over the tokens meets, and computes an answer
or finds it impossible exactly when the pass meets none. -/
theorem evaluateTokens_fault_iff_run_fault (tokens : List Token) :
    (∀ fault, evaluateTokens tokens = .error (.ungrammatical fault) ↔
      State.initial.run tokens = .error fault) ∧
    (IsAnswer (evaluateTokens tokens) ↔ State.initial.run tokens = .ok ()) := by
  rw [run_initial]
  cases hread : readAll tokens with
  | error fault =>
    rw [evaluateTokens_of_readAll_error hread]
    simp [Except.bind, IsAnswer]
  | ok reading =>
    have hanswer := isAnswer_of_readAll_ok hread
    refine ⟨fun fault => ⟨fun h => ?_, nofun⟩, fun _ => rfl, fun _ => hanswer⟩
    rw [h] at hanswer
    simp [IsAnswer] at hanswer

end InfixArithmetic.PendingOpeners
