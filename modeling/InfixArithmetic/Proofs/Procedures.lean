import InfixArithmetic.Evaluation
import InfixArithmetic.Proofs.Derivations
import Mathlib.Data.List.Basic

/-!
The rules of the grammar as procedures that call one another and share a cursor. The cursor holds
all the tokens, the position reached in them, the depth of nesting, whether a division by zero is on
record, and the operations carried out so far. A procedure is allowed so many calls inside one
another, its own included; those that it calls are allowed one fewer, and with none left nothing is
handed back. The loop of a chain takes no call. Each procedure comes with a proof of what it keeps
of the cursor that it is given, also where it fails.
-/
namespace InfixArithmetic.Procedures

open Binary64 Derivations Evaluation Faults Grammar Tokens

/-- An operation and the values it is carried out on. -/
structure Application where
  left : Value
  operation : Operation
  right : Value
deriving DecidableEq

namespace Application

/-- The result, or what stands in for one. -/
def value (a : Application) : Value := (result? a.operation a.left a.right).getD .nan

def dividesByZero (a : Application) : Bool := (result? a.operation a.left a.right).isNone

end Application

structure Cursor where
  tokens : List Token
  position : Nat
  depth : Nat
  dividesByZero : Bool
  applied : List Application
deriving DecidableEq

namespace Cursor

def start (tokens : List Token) : Cursor := ⟨tokens, 0, 0, false, []⟩

/-- The tokens not read yet. -/
def rest (cursor : Cursor) : List Token := cursor.tokens.drop cursor.position

def next? (cursor : Cursor) : Option Token := cursor.tokens[cursor.position]?

def forward (cursor : Cursor) : Cursor := { cursor with position := cursor.position + 1 }

/-- Moves past the next token, if there is one. -/
def pass (cursor : Cursor) : Cursor := if cursor.next?.isSome then cursor.forward else cursor

def enter (cursor : Cursor) : Cursor := { cursor with depth := cursor.depth + 1 }

def leave (cursor : Cursor) : Cursor := { cursor with depth := cursor.depth - 1 }

def record (cursor : Cursor) (a : Application) : Cursor :=
  { cursor with
    dividesByZero := cursor.dividesByZero || a.dividesByZero
    applied := cursor.applied ++ [a] }

/-- Whether one of the operations carried out on the way from a cursor to a later one was a division
by zero, whatever the record said before. -/
def recordedSince (before after : Cursor) : Bool :=
  (after.applied.drop before.applied.length).any Application.dividesByZero

end Cursor

/-- The tokens and the depth are as they were. The position is no earlier and, if it was among the
tokens, still is. The operations and the record have only been added to, and agree. -/
structure Keeps (before after : Cursor) : Prop where
  tokens : after.tokens = before.tokens
  depth : after.depth = before.depth
  position_le : before.position ≤ after.position
  position_le_length : before.position ≤ before.tokens.length →
    after.position ≤ before.tokens.length
  applied : before.applied <+: after.applied
  dividesByZero : after.dividesByZero = (before.dividesByZero || before.recordedSince after)

theorem recordedSince_self (cursor : Cursor) : cursor.recordedSince cursor = false := by
  simp [Cursor.recordedSince]

theorem recordedSince_record (cursor : Cursor) (a : Application) :
    cursor.recordedSince (cursor.record a) = a.dividesByZero := by
  simp [Cursor.recordedSince, Cursor.record]

theorem recordedSince_trans {a b c : Cursor} (hab : a.applied <+: b.applied)
    (hbc : b.applied <+: c.applied) :
    a.recordedSince c = (a.recordedSince b || b.recordedSince c) := by
  obtain ⟨early, hb⟩ := hab
  obtain ⟨late, hc⟩ := hbc
  simp [Cursor.recordedSince, ← hc, ← hb]

theorem keeps_refl (cursor : Cursor) : Keeps cursor cursor where
  tokens := rfl
  depth := rfl
  position_le := Nat.le_refl _
  position_le_length := id
  applied := List.prefix_rfl
  dividesByZero := by rw [recordedSince_self, Bool.or_false]

theorem Keeps.trans {a b c : Cursor} (hab : Keeps a b) (hbc : Keeps b c) : Keeps a c where
  tokens := hbc.tokens.trans hab.tokens
  depth := hbc.depth.trans hab.depth
  position_le := Nat.le_trans hab.position_le hbc.position_le
  position_le_length := fun h => by
    have hb := hab.position_le_length h
    rw [← hab.tokens] at hb ⊢
    exact hbc.position_le_length hb
  applied := hab.applied.trans hbc.applied
  dividesByZero := by
    rw [hbc.dividesByZero, hab.dividesByZero, recordedSince_trans hab.applied hbc.applied,
      Bool.or_assoc]

theorem keeps_record (cursor : Cursor) (a : Application) : Keeps cursor (cursor.record a) where
  tokens := rfl
  depth := rfl
  position_le := Nat.le_refl _
  position_le_length := id
  applied := List.prefix_append _ _
  dividesByZero := by rw [recordedSince_record]; rfl

theorem position_lt_of_next? {cursor : Cursor} {token : Token} (h : cursor.next? = some token) :
    cursor.position < cursor.tokens.length :=
  (List.getElem?_eq_some_iff.mp h).1

theorem keeps_forward {cursor : Cursor} {token : Token} (h : cursor.next? = some token) :
    Keeps cursor cursor.forward where
  tokens := rfl
  depth := rfl
  position_le := Nat.le_succ _
  position_le_length := fun _ => position_lt_of_next? h
  applied := List.prefix_rfl
  dividesByZero := (keeps_refl cursor).dividesByZero

theorem keeps_pass (cursor : Cursor) : Keeps cursor cursor.pass := by
  unfold Cursor.pass
  split
  · rename_i h
    obtain ⟨token, hnext⟩ := Option.isSome_iff_exists.mp h
    exact keeps_forward hnext
  · exact keeps_refl cursor

/-- A value or a fault, and the cursor where the procedure stopped. -/
structure Return where
  result : Except GrammarFault Value
  after : Cursor
deriving DecidableEq

/-- What is handed back, if anything is, has the property. -/
def Always (p : Return → Prop) (returned : Option Return) : Prop := ∀ r, returned = some r → p r

/-- Goes on with a value, and hands a fault back as it is. -/
def andThen (returned : Option Return) (f : Value → Cursor → Option Return) : Option Return :=
  match returned with
  | none => none
  | some ⟨.error fault, after⟩ => some ⟨.error fault, after⟩
  | some ⟨.ok value, after⟩ => f value after

theorem always_none (p : Return → Prop) : Always p none := nofun

theorem always_some {p : Return → Prop} {r : Return} (h : p r) : Always p (some r) := by
  rintro _ ⟨⟩
  exact h

theorem always_andThen {p q : Return → Prop} {returned : Option Return}
    {f : Value → Cursor → Option Return} (h : Always p returned)
    (herror : ∀ fault after, p ⟨.error fault, after⟩ → q ⟨.error fault, after⟩)
    (hok : ∀ value after, p ⟨.ok value, after⟩ → Always q (f value after)) :
    Always q (andThen returned f) := by
  match returned with
  | none => exact always_none q
  | some ⟨.error fault, after⟩ => exact always_some (herror fault after (h _ rfl))
  | some ⟨.ok value, after⟩ => exact hok value after (h _ rfl)

structure Procedure where
  call : Cursor → Option Return
  keeps : ∀ before, Always (fun r => Keeps before r.after) (call before)

/-- Joins operands to the left one for as long as an operator of the chain is next. -/
def loop (binds : Operation → Bool) (operand : Procedure) (left : Value) (cursor : Cursor) :
    Option Return :=
  match _hnext : cursor.next? with
  | some (.symbol (.operator operation)) =>
    if binds operation then
      match _hcall : operand.call cursor.forward with
      | none => none
      | some ⟨.error fault, after⟩ => some ⟨.error fault, after⟩
      | some ⟨.ok right, after⟩ =>
        let a : Application := ⟨left, operation, right⟩
        loop binds operand a.value (after.record a)
    else some ⟨.ok left, cursor⟩
  | _ => some ⟨.ok left, cursor⟩
termination_by cursor.tokens.length - cursor.position
decreasing_by
  have hlt := position_lt_of_next? _hnext
  have hkeeps := operand.keeps _ _ _hcall
  have htokens := hkeeps.tokens
  have hposition := hkeeps.position_le
  simp only [Cursor.record, Cursor.forward] at *
  rw [htokens]
  omega

theorem loop_keeps (binds : Operation → Bool) (operand : Procedure) (left : Value)
    (cursor : Cursor) :
    Always (fun r => Keeps cursor r.after) (loop binds operand left cursor) := by
  fun_induction loop binds operand left cursor with
  | case1 => exact always_none _
  | case2 left cursor operation hnext hbinds fault after hcall =>
    exact always_some ((keeps_forward hnext).trans (operand.keeps _ _ hcall))
  | case3 left cursor operation hnext hbinds right after hcall a ih =>
    intro r hr
    exact (((keeps_forward hnext).trans (operand.keeps _ _ hcall)).trans
      (keeps_record after a)).trans (ih r hr)
  | case4 => exact always_some (keeps_refl _)
  | case5 => exact always_some (keeps_refl _)

/-- One operand, then the loop. -/
def chainOf (binds : Operation → Bool) (operand : Procedure) : Procedure where
  call := fun cursor => andThen (operand.call cursor) (loop binds operand)
  keeps := fun before =>
    always_andThen (operand.keeps before) (fun _ _ h => h)
      (fun _ _ h r hr => h.trans (loop_keeps _ _ _ _ r hr))

/-- A minus before what is read one level further in, or a primary. -/
def unaryOf (inner primary : Procedure) : Procedure where
  call := fun cursor =>
    if cursor.next? = some (.symbol (.operator .subtract)) then
      andThen (inner.call cursor.forward) fun value after => some ⟨.ok value.neg, after⟩
    else primary.call cursor
  keeps := by
    intro before
    split
    · rename_i h
      exact always_andThen (p := fun r => Keeps before r.after)
        (fun r hr => (keeps_forward h).trans (inner.keeps _ r hr)) (fun _ _ h => h)
        (fun _ _ h => always_some h)
    · exact primary.keeps before

/-- The end of an expression that began after an opening parenthesis. -/
def closeAt (value : Value) (cursor : Cursor) : Option Return :=
  match cursor.next? with
  | some (.symbol .closing) => some ⟨.ok value, cursor.pass⟩
  | none => some ⟨.error .unbalancedParentheses, cursor.pass⟩
  | _ => some ⟨.error .operationExpected, cursor.pass⟩

theorem closeAt_keeps (value : Value) (cursor : Cursor) :
    Always (fun r => Keeps cursor r.after) (closeAt value cursor) := by
  unfold closeAt
  split <;> exact always_some (keeps_pass cursor)

/-- A number, or what is read one level further in, in parentheses. -/
def primaryOf (inner : Procedure) : Procedure where
  call := fun cursor =>
    match cursor.next? with
    | some (.number value) => some ⟨.ok value, cursor.pass⟩
    | some (.symbol .opening) =>
      if cursor.pass.next? = some (.symbol .closing) then
        some ⟨.error .emptyParentheses, cursor.pass⟩
      else andThen (inner.call cursor.pass) closeAt
    | _ => some ⟨.error .numberExpected, cursor.pass⟩
  keeps := by
    intro before
    have hpass := keeps_pass before
    split
    · exact always_some hpass
    · split
      · exact always_some hpass
      · exact always_andThen (p := fun r => Keeps before r.after)
          (fun r hr => hpass.trans (inner.keeps _ r hr)) (fun _ _ h => h)
          (fun _ _ h r hr => h.trans (closeAt_keeps _ _ r hr))
    · exact always_some hpass

/-- Calls a rule one level further in, if there is one, and comes back to the level at hand whether
the rule has failed or not. -/
def nestedOf (rule : Procedure) : Procedure where
  call := fun cursor =>
    if maxDepth ≤ cursor.depth then some ⟨.error .tooDeep, cursor⟩
    else (rule.call cursor.enter).map fun r => { r with after := r.after.leave }
  keeps := by
    intro before
    split
    · exact always_some (keeps_refl before)
    · intro _ h
      obtain ⟨r, hr, rfl⟩ := Option.map_eq_some_iff.mp h
      have hkeeps := rule.keeps _ r hr
      exact { hkeeps with depth := congrArg (· - 1) hkeeps.depth }

/-- What hands nothing back, since no call is allowed any more. -/
def exhausted : Procedure where
  call := fun _ => none
  keeps := fun _ => always_none _

/-- A rule of the grammar, or a rule called through the check of the depth. -/
inductive Routine where
  | rule (category : Category)
  | nested (category : Category)

/-- The procedures that are allowed so many calls inside one another, their own included. -/
def procedure : Nat → Routine → Procedure
  | 0, _ => exhausted
  | calls + 1, .rule (.chain p) => chainOf p.joins (procedure calls (.rule p.operand))
  | calls + 1, .rule .unary =>
    unaryOf (procedure calls (.nested .unary)) (procedure calls (.rule .primary))
  | calls + 1, .rule .primary => primaryOf (procedure calls (.nested .sum))
  | calls + 1, .nested category => nestedOf (procedure calls (.rule category))

/-- The checks after an expression that has been read. -/
def conclude (value : Value) (after : Cursor) : Except EvaluationFault Value :=
  match after.next? with
  | some (.symbol .closing) => .error (.ungrammatical .unbalancedParentheses)
  | some _ => .error (.ungrammatical .operationExpected)
  | none =>
    if after.dividesByZero then .error .divisionByZero
    else if value.isFinite then .ok value
    else .error .outOfRange

/-- Reads and computes an expression that takes all the tokens, with so many calls allowed inside
one another. -/
def runWithin (calls : Nat) (tokens : List Token) : Option (Except EvaluationFault Value) :=
  ((procedure calls (.rule .sum)).call (.start tokens)).map fun r =>
    match r.result with
    | .error fault => .error (.ungrammatical fault)
    | .ok value => conclude value r.after

end InfixArithmetic.Procedures
