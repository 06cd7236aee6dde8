import InfixArithmetic.Proofs.CharacterClasses
import InfixArithmetic.Proofs.MaximalMunch

/-!
Screening only answers early. A text that passes is scanned as it would be with the blank
characters at its ends, and it holds no character that the scanner would refuse. A text that does
not pass is refused without screening as well: an empty one because an operand is missing, any
other at its first foreign character unless a run before that character is no number.
-/
namespace InfixArithmetic.Screening

open BlankText CharacterClasses DecimalLiterals Evaluation Faults MaximalMunch Scanning Tokens

variable {text kept : List Char}

/-- Blank characters are never foreign, so trimming leaves the first foreign character in place. -/
theorem find?_eq_of_isTrimmed (h : IsTrimmed text kept) :
    kept.find? (fun c => !isAllowed c) = text.find? (fun c => !isAllowed c) := by
  have hblank : ∀ part : List Char, (∀ c ∈ part, isBlank c = true) →
      part.find? (fun c => !isAllowed c) = none := by
    intro part hpart
    rw [List.find?_eq_none]
    intro c hc
    simp [isAllowed, hpart c hc]
  obtain ⟨lead, trail, rfl, hlead, htrail⟩ := h.split
  rw [List.find?_append, List.find?_append, hblank lead hlead, hblank trail htrail,
    Option.none_or, Option.or_none]

theorem screen_eq (text : String) :
    screen text =
      if trim text.toList = [] then .error .emptyExpression
      else
        match text.toList.find? (fun c => !isAllowed c) with
        | some c => .error (.foreignCharacter c)
        | none => .ok (String.ofList (trim text.toList)) := by
  rw [← find?_eq_of_isTrimmed (isTrimmed_trim text.toList), screen]
  cases trim text.toList <;> rfl

theorem lex_cut_append {left right : List Char}
    (hjoin : ∀ c ∈ left.getLast?, ∀ d ∈ right.head?,
      isLiteralChar c = false ∨ isLiteralChar d = false) :
    lex (cut (left ++ right)) =
      (lex (cut left)).bind fun tokens => (lex (cut right)).map (tokens ++ ·) := by
  rw [← ((isCut_cut left).append (isCut_cut right) hjoin).eq_cut, lex_append]

/-- A symbol parts the text before it from the text after it. -/
theorem lex_cut_symbol {c : Char} {symbol : Symbol} (h : symbol? c = some symbol)
    (left right : List Char) :
    lex (cut (left ++ c :: right)) =
      (lex (cut left)).bind fun tokens =>
        (lex (cut right)).map fun more => tokens ++ .symbol symbol :: more := by
  have hc := isLiteralChar_of_symbol? h
  rw [lex_cut_append, lex_cut_cons]
  · simp only [Scanner.starting, hc, h, Bool.false_eq_true, if_false]
    cases lex (cut left) with
    | error fault => rfl
    | ok tokens =>
      simp only [Except.bind, lexFrom]
      cases lex (cut right) <;> rfl
  · intro x _ d hd
    cases hd
    exact Or.inr hc

theorem lex_cut_joined {c : Char} {symbol : Symbol} {left right : List Char}
    {tokens more : List Token} (h : symbol? c = some symbol) (hleft : lex (cut left) = .ok tokens)
    (hright : lex (cut right) = .ok more) :
    lex (cut (left ++ c :: right)) = .ok (tokens ++ .symbol symbol :: more) := by
  rw [lex_cut_symbol h, hleft, hright]
  rfl

/-- A symbol in front of a text adds its token in front. -/
theorem lex_cut_symbol_cons {c : Char} {symbol : Symbol} {tokens : List Token}
    (h : symbol? c = some symbol) (htext : lex (cut text) = .ok tokens) :
    lex (cut (c :: text)) = .ok (.symbol symbol :: tokens) := by
  have hempty : lex (cut []) = .ok [] := rfl
  exact lex_cut_joined h hempty htext

theorem lex_cut_of_isBlank (hblank : ∀ c ∈ text, isBlank c = true) : lex (cut text) = .ok [] := by
  induction text with
  | nil => rfl
  | cons c text ih =>
    have hc := hblank c List.mem_cons_self
    have hrest : ∀ d ∈ text, isBlank d = true := fun d hd => hblank d (List.mem_cons_of_mem c hd)
    rw [cut_single (isLiteralChar_of_isBlank hc), lex_cons, ih hrest]
    simp [Piece.fault?, Piece.token?, lookup_singleTokens, hc, symbol?_of_isBlank hc, Except.map]

/-- Blank characters at the ends neither add tokens nor part a run. -/
theorem lex_cut_blank_ends {lead trail : List Char} (hlead : ∀ c ∈ lead, isBlank c = true)
    (htrail : ∀ c ∈ trail, isBlank c = true) :
    lex (cut (lead ++ kept ++ trail)) = lex (cut kept) := by
  rw [lex_cut_append, lex_cut_append, lex_cut_of_isBlank hlead, lex_cut_of_isBlank htrail]
  · cases lex (cut kept) <;> simp [Except.bind, Except.map]
  · intro c hc d _
    exact Or.inl (isLiteralChar_of_isBlank (hlead c (List.mem_of_getLast? hc)))
  · intro c _ d hd
    exact Or.inr (isLiteralChar_of_isBlank (htrail d (List.mem_of_head? hd)))

theorem lex_cut_eq_of_isTrimmed (h : IsTrimmed text kept) : lex (cut text) = lex (cut kept) := by
  obtain ⟨lead, trail, rfl, hlead, htrail⟩ := h.split
  exact lex_cut_blank_ends hlead htrail

/-- A text is refused for a maximal run that is no number or for a foreign character. -/
theorem fault_of_lex_cut {fault : LexicalFault} (h : lex (cut text) = .error fault) :
    (∃ before literal after, text = before ++ literal ++ after ∧
      IsMaximalRun before literal after ∧ fault = .invalidNumber (String.ofList literal)) ∨
    ∃ c ∈ text, IsForeign c ∧ fault = .unexpectedCharacter c := by
  obtain ⟨piece, hmem, hfault⟩ := exists_fault_of_lex_eq_error h
  cases piece with
  | run literal =>
    obtain ⟨before, after, htext, hmax⟩ := (isCut_cut text).maximal_run hmem
    refine Or.inl ⟨before, literal, after, htext, hmax, ?_⟩
    rw [Piece.fault?] at hfault
    split at hfault
    · cases hfault
    · cases hfault
      rfl
  | single c =>
    obtain ⟨hc, hliteral⟩ := (isCut_cut text).mem_of_single hmem
    rw [Piece.fault?] at hfault
    split at hfault
    · rename_i hforeign
      cases hfault
      rw [lookup_singleTokens, Option.map_eq_none_iff] at hforeign
      exact Or.inr ⟨c, hc, (isForeign_iff c).mpr ⟨hliteral, hforeign.1, hforeign.2⟩, rfl⟩
    · cases hfault

/-- Scanning stops at the first foreign character at the latest. -/
theorem lex_cut_of_isForeign {before after : List Char} {c : Char} (hc : IsForeign c)
    (hbefore : ∀ x ∈ before, ¬ IsForeign x) :
    lex (cut (before ++ c :: after)) = .error (.unexpectedCharacter c) ∨
    ∃ first literal last, before = first ++ literal ++ last ∧
      IsMaximalRun first literal (last ++ c :: after) ∧
      lex (cut (before ++ c :: after)) = .error (.invalidNumber (String.ofList literal)) := by
  obtain ⟨hliteral, hsymbol, hblank⟩ := (isForeign_iff c).mp hc
  have hjoin : ∀ x ∈ before.getLast?, ∀ d ∈ (c :: after).head?,
      isLiteralChar x = false ∨ isLiteralChar d = false := by
    intro x _ d hd
    cases hd
    exact Or.inr hliteral
  have hrest : lex (cut (c :: after)) = .error (.unexpectedCharacter c) := by
    rw [cut_single hliteral, lex_cons]
    simp [Piece.fault?, lookup_singleTokens, hsymbol, hblank]
  rw [lex_cut_append hjoin, hrest]
  cases hlex : lex (cut before) with
  | ok tokens => exact Or.inl rfl
  | error fault =>
    rcases fault_of_lex_cut hlex with ⟨first, literal, last, htext, hmax, rfl⟩ |
      ⟨x, hx, hforeign, -⟩
    · refine Or.inr ⟨first, literal, last, htext, ⟨hmax.ne_nil, hmax.literal, hmax.before, ?_⟩, rfl⟩
      intro x hx
      cases last with
      | nil =>
        cases hx
        exact hliteral
      | cons y last => exact hmax.after x hx
    · exact absurd hforeign (hbefore x hx)

theorem tokenize_eq_of_isTrimmed {text kept : String} (h : IsTrimmed text.toList kept.toList) :
    tokenize text = tokenize kept := by
  rw [tokenize_eq_lex_cut, tokenize_eq_lex_cut, lex_cut_eq_of_isTrimmed h]

theorem tokenize_ne_unexpectedCharacter {text : String} (h : ∀ c ∈ text.toList, ¬ IsForeign c)
    (c : Char) : tokenize text ≠ .error (.unexpectedCharacter c) := by
  intro herror
  rw [tokenize_eq_lex_cut] at herror
  rcases fault_of_lex_cut herror with ⟨_, _, _, _, _, hfault⟩ | ⟨x, hx, hforeign, _⟩
  · cases hfault
  · exact h x hx hforeign

/-- A text passes unless nothing is left of it or it has a foreign character, the first of which is
then reported. -/
theorem screen_cases (text : String) :
    (screen text = .error .emptyExpression ∧ IsTrimmed text.toList []) ∨
    (∃ before c after, screen text = .error (.foreignCharacter c) ∧
      text.toList = before ++ c :: after ∧ IsForeign c ∧ ∀ x ∈ before, ¬ IsForeign x) ∨
    ∃ kept, screen text = .ok kept ∧ IsTrimmed text.toList kept.toList ∧ kept.toList ≠ [] ∧
      ∀ c ∈ text.toList, ¬ IsForeign c := by
  have htrimmed := isTrimmed_trim text.toList
  rw [screen_eq]
  by_cases hempty : trim text.toList = []
  · rw [hempty] at htrimmed
    exact Or.inl ⟨if_pos hempty, htrimmed⟩
  · rw [if_neg hempty]
    refine Or.inr ?_
    cases hfind : text.toList.find? (fun c => !isAllowed c) with
    | some c =>
      obtain ⟨hc, before, after, htext, hbefore⟩ := List.find?_eq_some_iff_append.mp hfind
      refine Or.inl ⟨before, c, after, rfl, htext, ?_, ?_⟩
      · exact (isForeign_iff_not_isAllowed c).mpr (by simpa using hc)
      · intro x hx hforeign
        have hallowed := hbefore x hx
        rw [(isForeign_iff_not_isAllowed x).mp hforeign] at hallowed
        cases hallowed
    | none =>
      refine Or.inr ⟨_, rfl, ?_, by simpa using hempty, ?_⟩
      · rwa [String.toList_ofList]
      · intro c hc hforeign
        have hallowed := List.find?_eq_none.mp hfind c hc
        rw [(isForeign_iff_not_isAllowed c).mp hforeign] at hallowed
        exact hallowed rfl

theorem screen_of_isTrimmed {text kept : String} (hkept : IsTrimmed text.toList kept.toList)
    (hne : kept.toList ≠ []) (hforeign : ∀ c ∈ text.toList, ¬ IsForeign c) :
    screen kept = .ok kept := by
  have htrim := trim_eq_self hkept.head hkept.last
  have hfind : kept.toList.find? (fun c => !isAllowed c) = none := by
    rw [find?_eq_of_isTrimmed hkept, List.find?_eq_none]
    intro c hc hrefused
    exact hforeign c hc ((isForeign_iff_not_isAllowed c).mpr (by simpa using hrefused))
  rw [screen_eq, htrim, if_neg hne, hfind, String.ofList_toList]

theorem compute_of_isTrimmed {text kept : String} (h : IsTrimmed text.toList kept.toList) :
    compute text = compute kept := by
  rw [compute, compute, tokenize_eq_of_isTrimmed h]

theorem compute_of_isTrimmed_nil {text : String} (h : IsTrimmed text.toList []) :
    compute text = .error (.ungrammatical .numberExpected) := by
  have hempty : compute text = compute "" := compute_of_isTrimmed h
  rw [hempty]
  rfl

theorem compute_of_isForeign {text : String} {before after : List Char} {c : Char}
    (htext : text.toList = before ++ c :: after) (hc : IsForeign c)
    (hbefore : ∀ x ∈ before, ¬ IsForeign x) :
    compute text = .error (.foreignCharacter c) ∨
    ∃ first literal last, before = first ++ literal ++ last ∧
      IsMaximalRun first literal (last ++ c :: after) ∧
      compute text = .error (.invalidNumber (String.ofList literal)) := by
  rw [compute, tokenize_eq_lex_cut, htext]
  rcases lex_cut_of_isForeign hc hbefore with h | ⟨first, literal, last, hsplit, hmax, h⟩
  · rw [h]
    exact Or.inl rfl
  · rw [h]
    exact Or.inr ⟨first, literal, last, hsplit, hmax, rfl⟩

/-- A text that is not blank is refused for its first foreign character, or else computed. -/
theorem evaluate_eq_of_not_isBlank {text : String} (h : ∃ c ∈ text.toList, isBlank c = false) :
    evaluate text =
      match text.toList.find? (fun c => !isAllowed c) with
      | some c => .error (.foreignCharacter c)
      | none => compute text := by
  have htrimmed := isTrimmed_trim text.toList
  have hne : trim text.toList ≠ [] := by
    intro hempty
    rw [hempty] at htrimmed
    obtain ⟨c, hc, hblank⟩ := h
    obtain ⟨lead, trail, htext, hlead, htrail⟩ := htrimmed.split
    rw [htext, List.append_nil, List.mem_append] at hc
    rcases hc with hc | hc
    · rw [hlead c hc] at hblank
      cases hblank
    · rw [htrail c hc] at hblank
      cases hblank
  have hcompute : compute text = compute (String.ofList (trim text.toList)) := by
    apply compute_of_isTrimmed
    rwa [String.toList_ofList]
  rw [evaluate, screen_eq, if_neg hne, hcompute]
  cases text.toList.find? (fun c => !isAllowed c) <;> rfl

/-- Screening looks at nothing but the trimmed text, so evaluation does not either. -/
theorem evaluate_trim (text : String) :
    evaluate (String.ofList (trim text.toList)) = evaluate text := by
  have htrimmed := isTrimmed_trim text.toList
  have htrim : trim (trim text.toList) = trim text.toList :=
    trim_eq_self htrimmed.head htrimmed.last
  unfold evaluate screen
  rw [String.toList_ofList, htrim]

theorem evaluateTokens_eq_error {tokens : List Token} {fault : EvaluationFault}
    (h : evaluateTokens tokens = .error fault) :
    (∃ grammar, fault = .ungrammatical grammar) ∨ fault = .divisionByZero ∨
      fault = .outOfRange := by
  unfold evaluateTokens at h
  split at h
  · cases h
    exact Or.inl ⟨_, rfl⟩
  · split at h
    · cases h
      exact Or.inr (Or.inl rfl)
    · split at h
      · cases h
      · cases h
        exact Or.inr (Or.inr rfl)

/-- What a fault says of the text: it has nothing but blank characters, or the character named is
its first foreign one, or the literal named is a maximal run of it. The other faults are those of
its tokens. -/
theorem fault_of_evaluate {text : String} {fault : EvaluationFault}
    (h : evaluate text = .error fault) :
    match fault with
    | .emptyExpression => IsTrimmed text.toList []
    | .foreignCharacter c =>
      ∃ before after, text.toList = before ++ c :: after ∧ IsForeign c ∧
        ∀ x ∈ before, ¬ IsForeign x
    | .invalidNumber literal =>
      ∃ before run after, literal = String.ofList run ∧ text.toList = before ++ run ++ after ∧
        IsMaximalRun before run after
    | _ => True := by
  rcases screen_cases text with ⟨hscreen, hempty⟩ |
    ⟨before, c, after, hscreen, htext, hc, hbefore⟩ | ⟨kept, hscreen, htrimmed, -, hforeign⟩
  · rw [evaluate, hscreen] at h
    cases h
    exact hempty
  · rw [evaluate, hscreen] at h
    cases h
    exact ⟨before, after, htext, hc, hbefore⟩
  · have hcompute : evaluate text = compute text := by
      rw [evaluate, hscreen, compute_of_isTrimmed htrimmed]
    rw [hcompute, compute] at h
    split at h
    · rename_i lexical hlexical
      cases h
      rw [tokenize_eq_lex_cut] at hlexical
      rcases fault_of_lex_cut hlexical with ⟨before, run, after, htext, hmax, rfl⟩ |
        ⟨c, hc, hcforeign, -⟩
      · exact ⟨before, run, after, rfl, htext, hmax⟩
      · exact absurd hcforeign (hforeign c hc)
    · rcases evaluateTokens_eq_error h with ⟨grammar, rfl⟩ | rfl | rfl
      · trivial
      · trivial
      · trivial

/-- Screening never changes a value, and where it answers with a fault the text has no value. -/
theorem screen_agrees (text : String) :
    (match screen text with
      | .ok kept =>
        IsTrimmed text.toList kept.toList ∧ screen kept = .ok kept ∧
        (∀ c, tokenize kept ≠ .error (.unexpectedCharacter c)) ∧
        evaluate text = compute text ∧ evaluate kept = compute text
      | .error .emptyExpression => compute text = .error (.ungrammatical .numberExpected)
      | .error (.foreignCharacter c) =>
        ∃ before after, text.toList = before ++ c :: after ∧ IsForeign c ∧
          (∀ x ∈ before, ¬ IsForeign x) ∧
          (compute text = .error (.foreignCharacter c) ∨
            ∃ first literal last, before = first ++ literal ++ last ∧
              IsMaximalRun first literal (last ++ c :: after) ∧
              compute text = .error (.invalidNumber (String.ofList literal)))
      | .error _ => False) ∧
    ∀ value, evaluate text = .ok value ↔ compute text = .ok value := by
  rcases screen_cases text with ⟨hscreen, hempty⟩ |
    ⟨before, c, after, hscreen, htext, hc, hbefore⟩ | ⟨kept, hscreen, htrimmed, hne, hforeign⟩
  · have hcompute := compute_of_isTrimmed_nil hempty
    rw [evaluate, hscreen]
    exact ⟨hcompute, fun value => by simp [hcompute]⟩
  · have hcompute := compute_of_isForeign htext hc hbefore
    rw [evaluate, hscreen]
    refine ⟨⟨before, after, htext, hc, hbefore, hcompute⟩, fun value => ?_⟩
    rcases hcompute with h | ⟨_, _, _, _, _, h⟩ <;> simp [h]
  · have hagain := screen_of_isTrimmed htrimmed hne hforeign
    have hcompute := compute_of_isTrimmed htrimmed
    have hevaluate : evaluate text = compute text := by
      rw [evaluate, hscreen, hcompute]
    have hevaluate' : evaluate kept = compute text := by
      rw [evaluate, hagain, hcompute]
    rw [hscreen]
    refine ⟨⟨htrimmed, hagain, ?_, hevaluate, hevaluate'⟩, fun value => by rw [hevaluate]⟩
    rw [← tokenize_eq_of_isTrimmed htrimmed]
    exact tokenize_ne_unexpectedCharacter hforeign

end InfixArithmetic.Screening
