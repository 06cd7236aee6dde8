import InfixArithmetic.Proofs.PendingOpeners
import InfixArithmetic.Proofs.Screening

/-!
Two texts side by side. Their tokens follow each other as the texts do unless a run of literal
characters goes on across the join, and a fault in the first text comes before any in the second.
Blank characters put between the texts are then not noticed at all. Where a run would go on they
part it into two numbers, and no expression has two numbers next to each other.
-/
namespace InfixArithmetic.JoinedTexts

open BlankText CharacterClasses DecimalLiterals Evaluation Faults Grammar MaximalMunch
  PendingOpeners RuleEquations Scanning Screening Tokens

/-- The first text ends in a literal character and the second begins with one. -/
def runsOn (left right : List Char) : Bool :=
  left.getLast?.any isLiteralChar && right.head?.any isLiteralChar

variable {left right : List Char}

theorem runsOn_eq_false_iff :
    runsOn left right = false ↔
      ∀ c ∈ left.getLast?, ∀ d ∈ right.head?,
        isLiteralChar c = false ∨ isLiteralChar d = false := by
  unfold runsOn
  cases left.getLast? <;> cases right.head? <;>
    simp only [Option.any_none, Option.any_some, Bool.and_eq_false_iff, Option.mem_def,
      Option.some.injEq, forall_eq', reduceCtorEq, false_implies, implies_true, true_or, or_true]

theorem runsOn_eq_true_iff :
    runsOn left right = true ↔
      (∃ c ∈ left.getLast?, isLiteralChar c = true) ∧
        ∃ d ∈ right.head?, isLiteralChar d = true := by
  unfold runsOn
  cases left.getLast? <;> cases right.head? <;> simp [Option.any]

/-- The tokens of two texts joined are those of the one and then those of the other. A fault of the
first text is reported in any case, one of the second if the first has none. -/
theorem tokenize_append (left right : String) (h : runsOn left.toList right.toList = false) :
    tokenize (left ++ right) =
      match tokenize left, tokenize right with
      | .error fault, _ => .error fault
      | .ok _, .error fault => .error fault
      | .ok tokens, .ok more => .ok (tokens ++ more) := by
  rw [tokenize_eq_lex_cut, String.toList_append, lex_cut_append (runsOn_eq_false_iff.mp h),
    ← tokenize_eq_lex_cut, ← tokenize_eq_lex_cut]
  cases tokenize left with
  | error fault => rfl
  | ok tokens => cases tokenize right <;> rfl

/-- Both texts are at fault and touch, and the first fault is the one of the number, which is still
held when the foreign character comes. -/
theorem tokenize_append_faults :
    runsOn "1.2.".toList "^3".toList = false ∧
      tokenize ("1.2." ++ "^3") = .error (.invalidNumber "1.2.") := by
  have hends : runsOn "1.2.".toList "^3".toList = false := by decide
  have hfirst : tokenize "1.2." = .error (.invalidNumber "1.2.") := by decide
  refine ⟨hends, ?_⟩
  rw [tokenize_append _ _ hends, hfirst]

section

variable {blanks : List Char} (hblanks : ∀ c ∈ blanks, isBlank c = true)

include hblanks

theorem runsOn_blank_left : runsOn blanks right = false := by
  apply runsOn_eq_false_iff.mpr
  intro c hc d _
  exact Or.inl (isLiteralChar_of_isBlank (hblanks c (List.mem_of_getLast? hc)))

theorem runsOn_blank_right : runsOn left blanks = false := by
  apply runsOn_eq_false_iff.mpr
  intro c _ d hd
  exact Or.inr (isLiteralChar_of_isBlank (hblanks d (List.mem_of_head? hd)))

/-- Blank characters end a run, so the text after them goes on with none. -/
theorem runsOn_append_blank (h : blanks = [] → runsOn left right = false) :
    runsOn (left ++ blanks) right = false := by
  by_cases hempty : blanks = []
  · rw [hempty, List.append_nil]
    exact h hempty
  · have hends : runsOn blanks right = false := runsOn_blank_left hblanks
    rw [runsOn_eq_false_iff] at hends ⊢
    rwa [List.getLast?_append_of_ne_nil _ hempty]

/-- Blank characters have no tokens, and they keep apart the texts on either side. -/
theorem lex_cut_append_blank (h : blanks = [] → runsOn left right = false) :
    lex (cut (left ++ blanks ++ right)) =
      (lex (cut left)).bind fun tokens => (lex (cut right)).map (tokens ++ ·) := by
  have hleft : runsOn left blanks = false := runsOn_blank_right hblanks
  have hright := runsOn_append_blank hblanks h
  rw [lex_cut_append (runsOn_eq_false_iff.mp hright),
    lex_cut_append (runsOn_eq_false_iff.mp hleft), lex_cut_of_isBlank hblanks]
  cases lex (cut left) with
  | error fault => rfl
  | ok tokens => simp only [Except.bind, Except.map, List.append_nil]

theorem find?_append_blank :
    (left ++ blanks ++ right).find? (fun c => !isAllowed c) =
      (left ++ right).find? (fun c => !isAllowed c) := by
  have hnone : blanks.find? (fun c => !isAllowed c) = none := by
    rw [List.find?_eq_none]
    intro c hc
    simp [isAllowed, hblanks c hc]
  simp only [List.find?_append, hnone, Option.or_none]

theorem exists_not_blank_append_iff :
    (∃ c ∈ left ++ blanks ++ right, isBlank c = false) ↔
      ∃ c ∈ left ++ right, isBlank c = false := by
  constructor
  · rintro ⟨c, hc, hnot⟩
    refine ⟨c, ?_, hnot⟩
    simp only [List.mem_append] at hc ⊢
    rcases hc with (hc | hc) | hc
    · exact Or.inl hc
    · rw [hblanks c hc] at hnot
      cases hnot
    · exact Or.inr hc
  · rintro ⟨c, hc, hnot⟩
    refine ⟨c, ?_, hnot⟩
    simp only [List.mem_append] at hc ⊢
    rcases hc with hc | hc
    · exact Or.inl (Or.inl hc)
    · exact Or.inr hc

end

theorem evaluate_of_isBlank {text : String} (h : ∀ c ∈ text.toList, isBlank c = true) :
    evaluate text = .error .emptyExpression := by
  have htrim : trim text.toList = [] := by
    rw [trim, List.dropWhile_eq_nil_iff.mpr h]
    rfl
  rw [evaluate, screen_eq, if_pos htrim]

/-- Evaluation asks of a text whether all of it is blank, which foreign character comes first and
what its tokens are. -/
theorem evaluate_congr {text other : String}
    (hblank : (∃ c ∈ text.toList, isBlank c = false) ↔ ∃ c ∈ other.toList, isBlank c = false)
    (hforeign : text.toList.find? (fun c => !isAllowed c) =
      other.toList.find? (fun c => !isAllowed c))
    (hlex : lex (cut text.toList) = lex (cut other.toList)) : evaluate text = evaluate other := by
  by_cases h : ∃ c ∈ text.toList, isBlank c = false
  · rw [evaluate_eq_of_not_isBlank h, evaluate_eq_of_not_isBlank (hblank.mp h), hforeign, compute,
      compute, tokenize_eq_lex_cut, tokenize_eq_lex_cut, hlex]
  · have hall : ∀ {part : String}, (¬ ∃ c ∈ part.toList, isBlank c = false) →
        ∀ c ∈ part.toList, isBlank c = true := by
      intro part hnone c hc
      by_contra hnot
      exact hnone ⟨c, hc, Bool.eq_false_iff.mpr hnot⟩
    rw [evaluate_of_isBlank (hall h), evaluate_of_isBlank (hall (mt hblank.mpr h))]

theorem exists_first_run {text : List Char} {pieces : List Piece} (h : IsCut text pieces)
    (hfirst : ∃ c ∈ text.head?, isLiteralChar c = true) :
    ∃ literal later, pieces = .run literal :: later := by
  obtain ⟨c, hc, hliteral⟩ := hfirst
  cases h with
  | nil => cases hc
  | single hnot _ =>
    cases hc
    rw [hliteral] at hnot
    cases hnot
  | run _ _ _ _ => exact ⟨_, _, rfl⟩

theorem exists_last_run {text : List Char} {pieces : List Piece} (h : IsCut text pieces)
    (hlast : ∃ c ∈ text.getLast?, isLiteralChar c = true) :
    ∃ earlier literal, pieces = earlier ++ [.run literal] := by
  induction h with
  | nil =>
    obtain ⟨c, hc, -⟩ := hlast
    cases hc
  | @single c rest pieces hc h ih =>
    obtain ⟨d, hd, hliteral⟩ := hlast
    cases rest with
    | nil =>
      obtain rfl : c = d := by simpa using hd
      rw [hc] at hliteral
      cases hliteral
    | cons x rest =>
      obtain ⟨earlier, literal, rfl⟩ := ih ⟨d, by simpa using hd, hliteral⟩
      exact ⟨.single c :: earlier, literal, rfl⟩
  | @run first rest pieces hne hfirst hends h ih =>
    obtain ⟨d, hd, hliteral⟩ := hlast
    cases rest with
    | nil => exact ⟨[], first, by rw [h.eq_cut]; rfl⟩
    | cons x rest =>
      rw [List.getLast?_append_of_ne_nil _ (List.cons_ne_nil x rest)] at hd
      obtain ⟨earlier, literal, rfl⟩ := ih ⟨d, hd, hliteral⟩
      exact ⟨.run first :: earlier, literal, rfl⟩

/-- Tokens that two parts make up together are those of the one before those of the other. -/
theorem bind_append_eq_ok {first second : Except LexicalFault (List Token)} {tokens : List Token}
    (h : (first.bind fun before => second.map (before ++ ·)) = .ok tokens) :
    ∃ before after, first = .ok before ∧ second = .ok after ∧ tokens = before ++ after := by
  obtain ⟨before, hbefore, hmap⟩ := bind_eq_ok h
  cases second with
  | error fault => cases hmap
  | ok after =>
    cases hmap
    exact ⟨before, after, hbefore, rfl, rfl⟩

theorem lex_run_cons {literal : List Char} {later : List Piece} {tokens : List Token}
    (h : lex (.run literal :: later) = .ok tokens) :
    ∃ value more, lex later = .ok more ∧ tokens = .number value :: more := by
  rw [lex_cons] at h
  cases hfault : (Piece.run literal).fault? with
  | some fault =>
    rw [hfault] at h
    cases h
  | none =>
    rw [hfault] at h
    cases hlater : lex later with
    | error fault =>
      rw [hlater] at h
      cases h
    | ok more =>
      rw [hlater] at h
      cases h
      exact ⟨_, more, rfl, rfl⟩

/-- A text that begins with a literal character has a number as its first token. -/
theorem exists_first_number {tokens : List Token}
    (hfirst : ∃ c ∈ right.head?, isLiteralChar c = true) (h : lex (cut right) = .ok tokens) :
    ∃ value later, tokens = .number value :: later := by
  obtain ⟨literal, later, hpieces⟩ := exists_first_run (isCut_cut right) hfirst
  rw [hpieces] at h
  obtain ⟨value, more, -, rfl⟩ := lex_run_cons h
  exact ⟨value, more, rfl⟩

/-- A text that ends in a literal character has a number as its last token. -/
theorem exists_last_number {tokens : List Token}
    (hlast : ∃ c ∈ left.getLast?, isLiteralChar c = true) (h : lex (cut left) = .ok tokens) :
    ∃ earlier value, tokens = earlier ++ [.number value] := by
  obtain ⟨earlier, literal, hpieces⟩ := exists_last_run (isCut_cut left) hlast
  rw [hpieces, lex_append] at h
  obtain ⟨before, after, -, hrun, rfl⟩ := bind_append_eq_ok h
  obtain ⟨value, more, hmore, rfl⟩ := lex_run_cons hrun
  cases hmore
  exact ⟨before, value, rfl⟩

/-- After a number the pass expects anything but another one. -/
theorem run_adjacent_numbers (state : State) (before after : List Token) (x y : Binary64.Value) :
    state.run (before ++ .number x :: .number y :: after) ≠ .ok () := by
  induction before generalizing state with
  | nil =>
    obtain ⟨place, openers⟩ := state
    cases place with
    | beforeOperand => simp [State.run, State.step, expect, resume]
    | afterOperand => simp [State.run, State.step, resume]
  | cons token before ih =>
    rw [List.cons_append, State.run]
    cases state.step (before ++ .number x :: .number y :: after).head? token with
    | error fault =>
      intro h
      cases h
    | ok next => exact ih next

theorem run_of_isAnswer {tokens : List Token} (h : IsAnswer (evaluateTokens tokens)) :
    State.initial.run tokens = .ok () := by
  rw [run_initial]
  cases hread : readAll tokens with
  | ok reading => rfl
  | error fault =>
    rw [evaluateTokens_of_readAll_error hread] at h
    simp [IsAnswer] at h

/-- A text with an answer has tokens, and the answer is theirs. -/
theorem exists_tokens_of_isAnswer {text : String} (h : IsAnswer (evaluate text)) :
    ∃ tokens, lex (cut text.toList) = .ok tokens ∧ IsAnswer (evaluateTokens tokens) := by
  rcases screen_cases text with ⟨hscreen, -⟩ | ⟨_, _, _, hscreen, -⟩ |
    ⟨kept, hscreen, htrimmed, -, -⟩
  · simp [evaluate, hscreen, IsAnswer] at h
  · simp [evaluate, hscreen, IsAnswer] at h
  · rw [evaluate, hscreen] at h
    change IsAnswer (compute kept) at h
    rw [← compute_of_isTrimmed htrimmed, compute, tokenize_eq_lex_cut] at h
    cases hlex : lex (cut text.toList) with
    | ok tokens =>
      rw [hlex] at h
      exact ⟨tokens, rfl, h⟩
    | error fault =>
      rw [hlex] at h
      cases fault <;> simp [LexicalFault.toEvaluationFault, IsAnswer] at h

/-- Two numbers with nothing but blank characters between them have no answer. -/
theorem not_isAnswer_of_parted {text : String} {blanks : List Char}
    (htext : text.toList = left ++ blanks ++ right) (hblanks : ∀ c ∈ blanks, isBlank c = true)
    (hruns : runsOn left right = true) (hne : blanks ≠ []) : ¬ IsAnswer (evaluate text) := by
  intro hanswer
  obtain ⟨hlast, hfirst⟩ := runsOn_eq_true_iff.mp hruns
  obtain ⟨tokens, hlex, htokens⟩ := exists_tokens_of_isAnswer hanswer
  rw [htext, lex_cut_append_blank hblanks (fun hempty => absurd hempty hne)] at hlex
  obtain ⟨before, after, hbefore, hafter, rfl⟩ := bind_append_eq_ok hlex
  obtain ⟨earlier, x, rfl⟩ := exists_last_number hlast hbefore
  obtain ⟨y, later, rfl⟩ := exists_first_number hfirst hafter
  have hrun := run_of_isAnswer htokens
  rw [List.append_assoc] at hrun
  exact run_adjacent_numbers .initial earlier later x y hrun

/-- Blank characters between two texts make no difference, neither to a value nor to a fault, unless
a run of literal characters would go on across the join. Such a run they part for good: whatever is
around the two numbers, it has no answer. -/
theorem evaluate_append_blank (left blanks right : String)
    (hblanks : ∀ c ∈ blanks.toList, isBlank c = true) :
    (runsOn left.toList right.toList = false →
      evaluate (left ++ blanks ++ right) = evaluate (left ++ right)) ∧
    (runsOn left.toList right.toList = true → blanks ≠ "" →
      ¬ IsAnswer (evaluate (left ++ blanks ++ right))) := by
  constructor
  · intro hends
    apply evaluate_congr
    · simp only [String.toList_append]
      exact exists_not_blank_append_iff hblanks
    · simp only [String.toList_append]
      exact find?_append_blank hblanks
    · simp only [String.toList_append]
      rw [lex_cut_append_blank hblanks (fun _ => hends),
        lex_cut_append (runsOn_eq_false_iff.mp hends)]
  · intro hruns hne
    have hempty : blanks.toList ≠ [] := by simpa using hne
    apply not_isAnswer_of_parted _ hblanks hruns hempty
    simp only [String.toList_append]

/-- A blank between two minuses is not noticed, and one inside a number cannot be overlooked. -/
theorem evaluate_append_blank_ideographic :
    (∀ c ∈ "\u3000".toList, isBlank c = true) ∧
    runsOn "2--".toList "-.5".toList = false ∧
    evaluate ("2--" ++ "\u3000" ++ "-.5") = evaluate ("2--" ++ "-.5") ∧
    runsOn "(1".toList ".5)".toList = true ∧
    ¬ IsAnswer (evaluate ("(1" ++ "\u3000" ++ ".5)")) := by
  have hblanks : ∀ c ∈ "\u3000".toList, isBlank c = true := List.all_eq_true.mp (by decide)
  have hends : runsOn "2--".toList "-.5".toList = false := by decide
  have hruns : runsOn "(1".toList ".5)".toList = true := by decide
  exact ⟨hblanks, hends, (evaluate_append_blank "2--" "\u3000" "-.5" hblanks).1 hends, hruns,
    (evaluate_append_blank "(1" "\u3000" ".5)" hblanks).2 hruns (by decide)⟩

end InfixArithmetic.JoinedTexts
