import InfixArithmetic.Faults
import InfixArithmetic.Tokens

/-!
Expressions are read from tokens and computed on the way. An expression is a chain of terms joined
by additions and subtractions, a term a chain of operands joined by multiplications and divisions,
an operand a number or an expression in parentheses after any number of minuses. A minus and an
opening parenthesis each lead one level further in, and there are 256 levels. A division by zero
does not end the reading: it is recorded, and its result is not a number.
-/
namespace InfixArithmetic.Grammar

open Binary64 Faults Tokens

/-- The result of an operation, which exists unless zero is a divisor. -/
def result? (operation : Operation) (left right : Value) : Option Value :=
  match operation with
  | .add => some (left.add right)
  | .subtract => some (left.sub right)
  | .multiply => some (left.mul right)
  | .divide => if right.isZero then none else some (left.div right)

/-- What was computed from the tokens read so far, and the tokens after them. -/
structure Reading where
  value : Value
  dividesByZero : Bool
  rest : List Token

namespace Reading

def negate (reading : Reading) : Reading := { reading with value := reading.value.neg }

/-- Joins what was read before an operator with what was read after it. -/
def combine (left : Reading) (operation : Operation) (right : Reading) : Reading :=
  match result? operation left.value right.value with
  | some value => ⟨value, left.dividesByZero || right.dividesByZero, right.rest⟩
  | none => ⟨.nan, true, right.rest⟩

theorem combine_rest (left right : Reading) (operation : Operation) :
    (left.combine operation right).rest = right.rest := by
  unfold combine
  split <;> rfl

end Reading

/-- A rule of the grammar reads some of the tokens from the front, and at least one. -/
structure Rule where
  read : List Token → Except GrammarFault Reading
  consumes : ∀ tokens reading, read tokens = .ok reading → reading.rest.length < tokens.length

/-- Reads on while the next token is an operator that binds in this chain, from left to right. -/
def chainFrom (binds : Operation → Bool) (operand : Rule) (left : Reading) :
    Except GrammarFault Reading :=
  match _hrest : left.rest with
  | .symbol (.operator operation) :: tokens =>
    if binds operation then
      match _hread : operand.read tokens with
      | .error fault => .error fault
      | .ok right => chainFrom binds operand (left.combine operation right)
    else .ok left
  | _ => .ok left
termination_by left.rest.length
decreasing_by
  have hlt := operand.consumes tokens right _hread
  rw [Reading.combine_rest, _hrest, List.length_cons]
  omega

theorem chainFrom_length_le (binds : Operation → Bool) (operand : Rule) (left reading : Reading)
    (h : chainFrom binds operand left = .ok reading) :
    reading.rest.length ≤ left.rest.length := by
  fun_induction chainFrom binds operand left with
  | case1 => simp at h
  | case2 left operation tokens hrest hbinds right hread ih =>
    have hlt := operand.consumes tokens right hread
    have hle := ih h
    rw [Reading.combine_rest] at hle
    rw [hrest, List.length_cons]
    omega
  | case3 => simp_all
  | case4 => simp_all

/-- One operand, then as many as operators of the chain lead to. -/
def chain (binds : Operation → Bool) (operand : Rule) : Rule where
  read := fun tokens =>
    match operand.read tokens with
    | .error fault => .error fault
    | .ok first => chainFrom binds operand first
  consumes := by
    intro tokens reading h
    split at h
    · simp at h
    · rename_i first hfirst
      have hlt := operand.consumes tokens first hfirst
      have hle := chainFrom_length_le binds operand first reading h
      omega

def isMultiplicative : Operation → Bool
  | .multiply | .divide => true
  | .add | .subtract => false

def isAdditive (operation : Operation) : Bool := !isMultiplicative operation

def term (operand : Rule) : Rule := chain isMultiplicative operand

def expression (operand : Rule) : Rule := chain isAdditive (term operand)

/-- The end of an expression that began after an opening parenthesis. -/
def close (enclosed : Reading) : Except GrammarFault Reading :=
  match enclosed.rest with
  | .symbol .closing :: rest => .ok { enclosed with rest := rest }
  | [] => .error .unbalancedParentheses
  | _ => .error .operationExpected

theorem close_length_le (enclosed reading : Reading) (h : close enclosed = .ok reading) :
    reading.rest.length ≤ enclosed.rest.length := by
  unfold close at h
  split at h
  · rename_i rest hrest
    cases h
    rw [hrest]
    exact Nat.le_succ rest.length
  · simp at h
  · simp at h

/-- A number, or an expression in parentheses. The operands of that expression are read one level
further in, if there is one. -/
def primary (inner : Option Rule) : Rule where
  read := fun tokens =>
    match tokens with
    | .number value :: rest => .ok ⟨value, false, rest⟩
    | .symbol .opening :: .symbol .closing :: _ => .error .emptyParentheses
    | .symbol .opening :: rest =>
      match inner with
      | none => .error .tooDeep
      | some operand =>
        match (expression operand).read rest with
        | .error fault => .error fault
        | .ok enclosed => close enclosed
    | _ => .error .numberExpected
  consumes := by
    intro tokens reading h
    split at h
    · cases h
      simp
    · simp at h
    · split at h
      · simp at h
      · rename_i rest _ _ operand
        split at h
        · simp at h
        · rename_i enclosed hread
          have hlt := (expression operand).consumes rest enclosed hread
          have hle := close_length_le enclosed reading h
          rw [List.length_cons]
          omega
    · simp at h

/-- A primary, or a minus before an operand one level further in. -/
def signed (inner : Option Rule) : Rule where
  read := fun tokens =>
    match tokens with
    | .symbol (.operator .subtract) :: rest =>
      match inner with
      | none => .error .tooDeep
      | some operand =>
        match operand.read rest with
        | .error fault => .error fault
        | .ok positive => .ok positive.negate
    | _ => (primary inner).read tokens
  consumes := by
    intro tokens reading h
    split at h
    · split at h
      · simp at h
      · rename_i rest _ operand
        split at h
        · simp at h
        · rename_i positive hread
          cases h
          exact Nat.lt_succ_of_lt (operand.consumes rest positive hread)
    · exact (primary inner).consumes _ reading h

/-- The operands from which so many levels lead further in. -/
def operand : Nat → Rule
  | 0 => signed none
  | levels + 1 => signed (some (operand levels))

def maxDepth : Nat := 256

/-- Reads an expression that takes all the tokens. -/
def readAll (tokens : List Token) : Except GrammarFault Reading :=
  match (expression (operand maxDepth)).read tokens with
  | .error fault => .error fault
  | .ok reading =>
    match reading.rest with
    | [] => .ok reading
    | .symbol .closing :: _ => .error .unbalancedParentheses
    | _ => .error .operationExpected

end InfixArithmetic.Grammar
