import InfixArithmetic.Proofs.Screening

/-!
A scanner is used by feeding it characters and finishing lexemes in any order, and a fault does not
end its use. Finishing is a reset, and so is every fault: the scanner then holds nothing and answers
as a new one would. Between resets it loses nothing. The characters fed since the last one are what
it has released and the lexeme that it holds, and a reset drops that lexeme at most.
-/
namespace InfixArithmetic.CallHistories

open Binary64 BlankText CharacterClasses DecimalLiterals Faults MaximalMunch Scanning Screening
  Tokens

inductive Call where
  | feed (character : Char)
  | finish
deriving DecidableEq

def step (scanner : Scanner) : Call → Step
  | .feed c => scanner.feed c
  | .finish => scanner.finish

def answers (scanner : Scanner) : List Call → List (Except LexicalFault (Option Token))
  | [] => []
  | call :: later => (step scanner call).answer :: answers (step scanner call).next later

/-- The tokens among the answers in order. -/
def returned (answers : List (Except LexicalFault (Option Token))) : List Token :=
  answers.flatMap fun
    | .ok token => token.toList
    | .error _ => []

/-- Everything that feeding a character can do: it extends the number in progress, or what is held
is released and the character begins the next lexeme, unless one of the two is at fault. -/
theorem feed_cases (scanner : Scanner) (c : Char) :
    (∃ literal, scanner = .inNumber literal ∧ isLiteralChar c = true ∧
      scanner.feed c = ⟨.inNumber (literal.push c), .ok none⟩) ∨
    (∀ literal, scanner = .inNumber literal → isLiteralChar c = false) ∧
      ((∃ fault, scanner.held = .error fault ∧ scanner.feed c = ⟨.idle, .error fault⟩) ∨
      (∃ token fault, scanner.held = .ok token ∧ Scanner.starting c = .error fault ∧
        scanner.feed c = ⟨.idle, .error fault⟩) ∨
      ∃ token next, scanner.held = .ok token ∧ Scanner.starting c = .ok next ∧
        scanner.feed c = ⟨next, .ok token⟩) := by
  have hreplace : ∀ step, scanner.replace c = step →
      ((∃ fault, scanner.held = .error fault ∧ step = ⟨.idle, .error fault⟩) ∨
      (∃ token fault, scanner.held = .ok token ∧ Scanner.starting c = .error fault ∧
        step = ⟨.idle, .error fault⟩) ∨
      ∃ token next, scanner.held = .ok token ∧ Scanner.starting c = .ok next ∧
        step = ⟨next, .ok token⟩) := by
    rintro step rfl
    unfold Scanner.replace
    cases hheld : scanner.held with
    | error fault => exact Or.inl ⟨fault, rfl, rfl⟩
    | ok token =>
      cases hstarting : Scanner.starting c with
      | error fault => exact Or.inr (Or.inl ⟨token, fault, rfl, rfl, rfl⟩)
      | ok next => exact Or.inr (Or.inr ⟨token, next, rfl, rfl, rfl⟩)
  cases scanner with
  | idle => exact Or.inr ⟨nofun, hreplace _ rfl⟩
  | inSymbol symbol => exact Or.inr ⟨nofun, hreplace _ rfl⟩
  | inNumber literal =>
    cases hc : isLiteralChar c with
    | true =>
      refine Or.inl ⟨literal, rfl, rfl, ?_⟩
      simp [Scanner.feed, hc]
    | false =>
      refine Or.inr ⟨fun _ _ => rfl, hreplace _ ?_⟩
      simp [Scanner.feed, hc]

/-- The four classes of characters and the lexeme that each begins. -/
theorem starting_cases (c : Char) :
    (isLiteralChar c = true ∧ Scanner.starting c = .ok (.inNumber (String.singleton c))) ∨
    (∃ symbol, isLiteralChar c = false ∧ symbol? c = some symbol ∧
      Scanner.starting c = .ok (.inSymbol symbol)) ∨
    (isBlank c = true ∧ Scanner.starting c = .ok .idle) ∨
    IsForeign c ∧ Scanner.starting c = .error (.unexpectedCharacter c) := by
  rw [isForeign_iff]
  unfold Scanner.starting
  cases isLiteralChar c with
  | true => simp
  | false => cases symbol? c <;> cases isBlank c <;> simp

/-- The characters of the lexeme that a scanner holds. -/
def IsLexeme (text : List Char) : Scanner → Prop
  | .idle => text = []
  | .inNumber literal => text = literal.toList
  | .inSymbol symbol => ∃ c, text = [c] ∧ symbol? c = some symbol

/-- A text fed without a fault is what the scanner has released, as these tokens, and the lexeme
that it holds, with no run across the boundary. -/
structure Splits (text kept held : List Char) (scanner : Scanner) (tokens : List Token) : Prop where
  text_eq : text = kept ++ held
  lexeme : IsLexeme held scanner
  boundary : ∀ c ∈ kept.getLast?, isLiteralChar c = false ∨
    ∃ d ∈ held.head?, isLiteralChar d = false
  released : lex (cut kept) = .ok tokens

namespace Splits

variable {text kept held : List Char} {scanner : Scanner} {tokens : List Token}

theorem cut_text (h : Splits text kept held scanner tokens) :
    cut text = cut kept ++ cut held := by
  rw [h.text_eq]
  apply cut_append
  intro c hc d hd
  rcases h.boundary c hc with hkept | ⟨d', hd', hheld⟩
  · exact Or.inl hkept
  · rw [Option.mem_unique hd hd']
    exact Or.inr hheld

/-- Finishing completes the tokens of the text, or tells why the lexeme held is none. -/
theorem lex_cut_text (h : Splits text kept held scanner tokens) (hholds : Holds scanner) :
    lex (cut text) = scanner.held.map fun token => tokens ++ token.toList := by
  have hheld : lex (cut held) = lexFrom scanner [] := by
    cases scanner with
    | idle => rw [show held = [] from h.lexeme, lexFrom]
    | inNumber literal =>
      rw [show held = literal.toList from h.lexeme, lexFrom, List.append_nil]
    | inSymbol symbol =>
      obtain ⟨c, rfl, hsymbol⟩ := h.lexeme
      rw [lex_cut_cons]
      simp [Scanner.starting, isLiteralChar_of_symbol? hsymbol, hsymbol, Except.bind]
  have hends : ∀ c ∈ [].head?, ∀ literal, scanner = .inNumber literal →
      isLiteralChar c = false := by
    intro c hc
    cases hc
  rw [h.cut_text, lex_append, h.released, hheld, lexFrom_eq_held scanner [] hholds hends]
  cases scanner.held with
  | error fault => rfl
  | ok token => simp [Except.bind, Except.map, cut, lex]

/-- A text does not end within a run unless the scanner holds that run. -/
theorem not_isLiteralChar_of_getLast? (h : Splits text kept held scanner tokens)
    (hnumber : ∀ literal, scanner ≠ .inNumber literal) (c : Char) (hlast : c ∈ text.getLast?) :
    isLiteralChar c = false := by
  rw [h.text_eq] at hlast
  cases scanner with
  | inNumber literal => exact absurd rfl (hnumber literal)
  | inSymbol symbol =>
    obtain ⟨d, rfl, hsymbol⟩ := h.lexeme
    rw [List.getLast?_concat] at hlast
    cases hlast
    exact isLiteralChar_of_symbol? hsymbol
  | idle =>
    obtain rfl : held = [] := h.lexeme
    rw [List.append_nil] at hlast
    rcases h.boundary c hlast with hc | ⟨d, hd, -⟩
    · exact hc
    · cases hd

theorem extend {literal : String} {c : Char}
    (h : Splits text kept held (.inNumber literal) tokens) (hne : literal.toList ≠ []) :
    Splits (text ++ [c]) kept (held ++ [c]) (.inNumber (literal.push c)) tokens where
  text_eq := by rw [h.text_eq, List.append_assoc]
  lexeme := by
    rw [IsLexeme, String.toList_push, show held = literal.toList from h.lexeme]
  boundary := by
    rw [List.head?_append_of_ne_nil held (by rwa [show held = literal.toList from h.lexeme])]
    exact h.boundary
  released := h.released

/-- A character that begins a lexeme leaves all that came before it released. -/
theorem begin {c : Char} {token : Option Token} {next : Scanner}
    (h : Splits text kept held scanner tokens) (hholds : Holds scanner)
    (hends : ∀ literal, scanner = .inNumber literal → isLiteralChar c = false)
    (hheld : scanner.held = .ok token) (hstarting : Scanner.starting c = .ok next) :
    ∃ kept' held', Splits (text ++ [c]) kept' held' next (tokens ++ token.toList) := by
  have hreleased : lex (cut text) = .ok (tokens ++ token.toList) := by
    rw [h.lex_cut_text hholds, hheld]
    rfl
  rcases starting_cases c with ⟨hc, hnext⟩ | ⟨symbol, hc, hsymbol, hnext⟩ | ⟨hblank, hnext⟩ |
    ⟨-, hforeign⟩
  · rw [hnext] at hstarting
    cases hstarting
    have hnumber : ∀ literal, scanner ≠ .inNumber literal := by
      intro literal hscanner
      rw [hends literal hscanner] at hc
      cases hc
    exact ⟨text, [c], rfl, by rw [IsLexeme, String.toList_singleton],
      fun x hx => Or.inl (h.not_isLiteralChar_of_getLast? hnumber x hx), hreleased⟩
  · rw [hnext] at hstarting
    cases hstarting
    exact ⟨text, [c], rfl, ⟨c, rfl, hsymbol⟩, fun _ _ => Or.inr ⟨c, rfl, hc⟩, hreleased⟩
  · rw [hnext] at hstarting
    cases hstarting
    have hc := isLiteralChar_of_isBlank hblank
    have hblanks : lex (cut [c]) = .ok [] := lex_cut_of_isBlank (by simpa using hblank)
    refine ⟨text ++ [c], [], (List.append_nil _).symm, rfl, ?_, ?_⟩
    · intro x hx
      rw [List.getLast?_concat] at hx
      cases hx
      exact Or.inl hc
    · rw [lex_cut_append, hreleased, hblanks]
      · simp [Except.bind, Except.map]
      · intro x _ d hd
        cases hd
        exact Or.inr hc
  · rw [hforeign] at hstarting
    cases hstarting

theorem feed {c : Char} {token : Option Token} (h : Splits text kept held scanner tokens)
    (hholds : Holds scanner) (hanswer : (scanner.feed c).answer = .ok token) :
    ∃ kept' held', Splits (text ++ [c]) kept' held' (scanner.feed c).next
      (tokens ++ token.toList) := by
  rcases feed_cases scanner c with ⟨literal, rfl, hc, hfeed⟩ |
    ⟨hends, ⟨fault, -, hfeed⟩ | ⟨_, fault, -, -, hfeed⟩ | ⟨token', next, hheld, hstarting, hfeed⟩⟩
  · rw [hfeed] at hanswer ⊢
    cases hanswer
    exact ⟨kept, held ++ [c], by simpa using h.extend hholds.1⟩
  · rw [hfeed] at hanswer
    cases hanswer
  · rw [hfeed] at hanswer
    cases hanswer
  · rw [hfeed] at hanswer ⊢
    cases hanswer
    exact h.begin hholds hends hheld hstarting

end Splits

end InfixArithmetic.CallHistories
