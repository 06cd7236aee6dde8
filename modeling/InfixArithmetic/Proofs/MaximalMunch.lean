import InfixArithmetic.Scanning
import Mathlib.Data.List.Basic

/-!
A text is cut into the maximal runs of literal characters and the single characters between them.
There is one such cut, and the tokens of the text can be read off it: each run that is a number
literal and each symbol gives a token, each blank character none, and any other piece is at fault.
The scanner releases the same tokens one character late, and stops at the same first fault.
-/
namespace InfixArithmetic.MaximalMunch

open BinaryGrid Binary64 BlankText DecimalLiterals Faults Scanning Tokens

inductive Piece where
  | run (literal : List Char)
  | single (character : Char)
deriving DecidableEq

/-- The text is cut into these pieces: a run ends only where no literal character follows. -/
inductive IsCut : List Char → List Piece → Prop
  | nil : IsCut [] []
  | single {c : Char} {rest : List Char} {pieces : List Piece} (hc : isLiteralChar c = false) :
      IsCut rest pieces → IsCut (c :: rest) (.single c :: pieces)
  | run {literal rest : List Char} {pieces : List Piece} (hne : literal ≠ [])
      (hliteral : ∀ c ∈ literal, isLiteralChar c = true)
      (hends : ∀ c ∈ rest.head?, isLiteralChar c = false) :
      IsCut rest pieces → IsCut (literal ++ rest) (.run literal :: pieces)

/-- The runs that are number literals: one point at most, some digit, a size that is finite when
rounded, and a leading zero only with a point or before zeros alone. -/
structure IsAcceptable (literal : List Char) : Prop where
  points : literal.count '.' ≤ 1
  digits : ∃ c ∈ literal, c.isDigit = true
  finite : (magnitude literal).isInfinite = false
  leading : '.' ∈ literal ∨ literal.head? ≠ some '0' ∨ ∀ c ∈ literal, c = '0'

theorem hasLeadingZero_eq_false_iff (literal : List Char) :
    hasLeadingZero literal = false ↔
      '.' ∈ literal ∨ literal.head? ≠ some '0' ∨ ∀ c ∈ literal, c = '0' := by
  unfold hasLeadingZero
  by_cases hhead : literal.head? = some '0' <;> by_cases hpoint : '.' ∈ literal <;>
    simp [hhead, hpoint]

theorem isAcceptable_iff (literal : List Char) :
    IsAcceptable literal ↔
      (literal.count '.' ≤ 1 && literal.any Char.isDigit && !hasLeadingZero literal &&
        !(magnitude literal).isInfinite) = true := by
  simp only [Bool.and_eq_true, Bool.not_eq_true', decide_eq_true_eq, List.any_eq_true,
    hasLeadingZero_eq_false_iff]
  constructor
  · rintro ⟨hpoints, hdigits, hfinite, hleading⟩
    exact ⟨⟨⟨hpoints, hdigits⟩, hleading⟩, hfinite⟩
  · rintro ⟨⟨⟨hpoints, hdigits⟩, hleading⟩, hfinite⟩
    exact ⟨hpoints, hdigits, hfinite, hleading⟩

instance (literal : List Char) : Decidable (IsAcceptable literal) :=
  decidable_of_iff' _ (isAcceptable_iff literal)

/-- The characters that are tokens on their own. -/
def singleTokens : List (Char × Token) :=
  [('+', .symbol (.operator .add)), ('-', .symbol (.operator .subtract)),
    ('*', .symbol (.operator .multiply)), ('/', .symbol (.operator .divide)),
    ('(', .symbol .opening), (')', .symbol .closing)]

/-- They are those that the scanner takes for symbols. -/
theorem lookup_singleTokens (c : Char) :
    singleTokens.lookup c = (symbol? c).map Token.symbol := by
  unfold symbol?
  split
  any_goals rfl
  rename_i hadd hsubtract hmultiply hdivide hopening hclosing
  rw [Option.map_none, List.lookup_eq_none_iff]
  simpa [singleTokens] using ⟨hadd, hsubtract, hmultiply, hdivide, hopening, hclosing⟩

namespace Piece

def fault? : Piece → Option LexicalFault
  | run literal =>
    if IsAcceptable literal then none else some (.invalidNumber (String.ofList literal))
  | single c =>
    if singleTokens.lookup c = none ∧ isBlank c = false then some (.unexpectedCharacter c) else none

def token? : Piece → Option Token
  | run literal => some (.number (.number false (magnitude literal)))
  | single c => singleTokens.lookup c

end Piece

/-- The first fault from the left, or else the tokens in order. -/
def lex (pieces : List Piece) : Except LexicalFault (List Token) :=
  match pieces.findSome? Piece.fault? with
  | some fault => .error fault
  | none => .ok (pieces.filterMap Piece.token?)

def prepend (c : Char) (pieces : List Piece) : List Piece :=
  if isLiteralChar c then
    match pieces with
    | .run literal :: rest => .run (c :: literal) :: rest
    | _ => .run [c] :: pieces
  else .single c :: pieces

def cut (text : List Char) : List Piece := text.foldr prepend []

theorem cut_single {c : Char} (hc : isLiteralChar c = false) (rest : List Char) :
    cut (c :: rest) = .single c :: cut rest := by
  simp [cut, prepend, hc]

theorem cut_run (literal rest : List Char) (hne : literal ≠ [])
    (hliteral : ∀ c ∈ literal, isLiteralChar c = true)
    (hends : ∀ c ∈ rest.head?, isLiteralChar c = false) :
    cut (literal ++ rest) = .run literal :: cut rest := by
  induction literal with
  | nil => exact absurd rfl hne
  | cons c literal ih =>
    have hc := hliteral c List.mem_cons_self
    change prepend c (cut (literal ++ rest)) = _
    cases literal with
    | nil =>
      cases rest with
      | nil => simp [prepend, hc, cut]
      | cons d rest =>
        rw [List.nil_append, cut_single (hends d rfl)]
        simp [prepend, hc]
    | cons d literal =>
      rw [ih (by simp) (fun x hx => hliteral x (List.mem_cons_of_mem c hx))]
      simp [prepend, hc]

theorem IsCut.eq_cut {text : List Char} {pieces : List Piece} (h : IsCut text pieces) :
    pieces = cut text := by
  induction h with
  | nil => rfl
  | single hc _ ih => rw [cut_single hc, ih]
  | run hne hliteral hends _ ih => rw [cut_run _ _ hne hliteral hends, ih]

theorem IsCut.prepend {text : List Char} {pieces : List Piece} (h : IsCut text pieces) (c : Char) :
    IsCut (c :: text) (prepend c pieces) := by
  unfold MaximalMunch.prepend
  split
  · rename_i hc
    have hsingle : ∀ x ∈ [c], isLiteralChar x = true := by
      intro x hx
      rw [List.mem_singleton.mp hx]
      exact hc
    cases h with
    | nil => exact .run (by simp) hsingle nofun .nil
    | @single d rest pieces hd h =>
      have hends : ∀ x ∈ (d :: rest).head?, isLiteralChar x = false := by
        intro x hx
        cases hx
        exact hd
      exact .run (by simp) hsingle hends (.single hd h)
    | @run literal rest pieces hne hliteral hends h =>
      have hmore : ∀ x ∈ c :: literal, isLiteralChar x = true := by
        intro x hx
        rcases List.mem_cons.mp hx with rfl | hx
        · exact hc
        · exact hliteral x hx
      exact .run (by simp) hmore hends h
  · rename_i hc
    exact .single (Bool.eq_false_iff.mpr hc) h

theorem isCut_cut (text : List Char) : IsCut text (cut text) := by
  induction text with
  | nil => exact .nil
  | cons c text ih => exact ih.prepend c

/-- The pieces of two texts are those of the texts joined unless a run goes on across the join. -/
theorem IsCut.append {left right : List Char} {first second : List Piece} (h : IsCut left first)
    (hright : IsCut right second)
    (hjoin : ∀ c ∈ left.getLast?, ∀ d ∈ right.head?,
      isLiteralChar c = false ∨ isLiteralChar d = false) :
    IsCut (left ++ right) (first ++ second) := by
  induction h with
  | nil => exact hright
  | @single c rest pieces hc _ ih =>
    refine .single hc (ih ?_)
    intro x hx
    exact hjoin x (List.mem_getLast?_cons hx)
  | @run literal rest pieces hne hliteral hends _ ih =>
    rw [List.append_assoc]
    refine .run hne hliteral ?_ (ih ?_)
    · intro d hd
      cases rest with
      | nil =>
        have hlast := List.getLast_mem_getLast? hne
        rcases hjoin _ (by simpa using hlast) d hd with hfalse | hfalse
        · rw [hliteral _ (List.getLast_mem hne)] at hfalse
          cases hfalse
        · exact hfalse
      | cons x rest => exact hends d hd
    · intro x hx
      exact hjoin x (List.mem_getLast?_append_of_mem_getLast? hx)

theorem cut_append {left right : List Char}
    (hjoin : ∀ c ∈ left.getLast?, ∀ d ∈ right.head?,
      isLiteralChar c = false ∨ isLiteralChar d = false) :
    cut (left ++ right) = cut left ++ cut right :=
  ((isCut_cut left).append (isCut_cut right) hjoin).eq_cut.symm

/-- A run of literal characters with no literal character next to it. -/
structure IsMaximalRun (before literal after : List Char) : Prop where
  ne_nil : literal ≠ []
  literal : ∀ c ∈ literal, isLiteralChar c = true
  before : ∀ c ∈ before.getLast?, isLiteralChar c = false
  after : ∀ c ∈ after.head?, isLiteralChar c = false

theorem IsCut.maximal_run {text literal : List Char} {pieces : List Piece} (h : IsCut text pieces)
    (hrun : .run literal ∈ pieces) :
    ∃ before after, text = before ++ literal ++ after ∧ IsMaximalRun before literal after := by
  induction h with
  | nil => cases hrun
  | @single c rest pieces hc _ ih =>
    obtain ⟨before, after, rfl, hmax⟩ := ih (by simpa using hrun)
    refine ⟨c :: before, after, by simp, hmax.ne_nil, hmax.literal, ?_, hmax.after⟩
    intro x hx
    cases before with
    | nil =>
      cases hx
      exact hc
    | cons y before => exact hmax.before x (by simpa using hx)
  | @run first rest pieces hne hfirst hends _ ih =>
    rcases List.mem_cons.mp hrun with heq | hrun
    · cases heq
      exact ⟨[], rest, rfl, hne, hfirst, nofun, hends⟩
    · obtain ⟨before, after, rfl, hmax⟩ := ih hrun
      refine ⟨first ++ before, after, by simp, hmax.ne_nil, hmax.literal, ?_, hmax.after⟩
      intro x hx
      cases before with
      | nil =>
        obtain ⟨c, tail, hcons⟩ := List.exists_cons_of_ne_nil hmax.ne_nil
        have htrue := hmax.literal c (by simp [hcons])
        have hfalse := hends c (by simp [hcons])
        rw [htrue] at hfalse
        cases hfalse
      | cons y before => exact hmax.before x (by simpa using hx)

theorem IsCut.mem_of_single {text : List Char} {c : Char} {pieces : List Piece}
    (h : IsCut text pieces) (hsingle : .single c ∈ pieces) :
    c ∈ text ∧ isLiteralChar c = false := by
  induction h with
  | nil => cases hsingle
  | single hc _ ih =>
    rcases List.mem_cons.mp hsingle with heq | hsingle
    · cases heq
      exact ⟨List.mem_cons_self, hc⟩
    · exact ⟨List.mem_cons_of_mem _ (ih hsingle).1, (ih hsingle).2⟩
  | run _ _ _ _ ih =>
    obtain ⟨hmem, hc⟩ := ih (by simpa using hsingle)
    exact ⟨List.mem_append_right _ hmem, hc⟩

theorem value?_eq (literal : List Char) (hliteral : ∀ c ∈ literal, isLiteralChar c = true) :
    value? literal =
      if IsAcceptable literal then some (.number false (magnitude literal)) else none := by
  have hall : literal.all isLiteralChar = true := List.all_eq_true.mpr hliteral
  have hiff : (isWellFormed literal && !(magnitude literal).isInfinite) = true ↔
      IsAcceptable literal := by
    rw [isAcceptable_iff, isWellFormed, hall, Bool.true_and]
  unfold value?
  by_cases h : IsAcceptable literal
  · rw [if_pos h, if_pos (hiff.mpr h)]
  · rw [if_neg h, if_neg (fun hwell => h (hiff.mp hwell))]

theorem map_nil_append (answer : Except LexicalFault (List Token)) :
    answer.map ([] ++ ·) = answer := by
  cases answer <;> rfl

/-- What the pieces of the rest of a text add to those before it. -/
theorem lex_cons (piece : Piece) (pieces : List Piece) :
    lex (piece :: pieces) =
      match piece.fault? with
      | some fault => .error fault
      | none => (lex pieces).map (piece.token?.toList ++ ·) := by
  unfold lex
  rw [List.findSome?_cons]
  cases piece.fault? with
  | some fault => rfl
  | none =>
    cases pieces.findSome? Piece.fault? with
    | some fault => rfl
    | none => cases htoken : piece.token? <;> simp [Except.map, htoken]

theorem lex_append (first second : List Piece) :
    lex (first ++ second) =
      (lex first).bind fun tokens => (lex second).map (tokens ++ ·) := by
  unfold lex
  rw [List.findSome?_append, List.filterMap_append]
  cases first.findSome? Piece.fault? with
  | some fault => rfl
  | none => cases second.findSome? Piece.fault? <;> rfl

theorem exists_fault_of_lex_eq_error {pieces : List Piece} {fault : LexicalFault}
    (h : lex pieces = .error fault) : ∃ piece ∈ pieces, piece.fault? = some fault := by
  unfold lex at h
  split at h
  · rename_i hfault
    cases h
    exact List.exists_of_findSome?_eq_some hfault
  · cases h

/-- A number in progress is a run that has begun. -/
def Holds : Scanner → Prop
  | .inNumber literal => literal.toList ≠ [] ∧ ∀ c ∈ literal.toList, isLiteralChar c = true
  | _ => True

/-- The answer to what the scanner holds followed by the rest of a text. -/
def lexFrom (scanner : Scanner) (rest : List Char) : Except LexicalFault (List Token) :=
  match scanner with
  | .idle => lex (cut rest)
  | .inNumber literal => lex (cut (literal.toList ++ rest))
  | .inSymbol symbol => (lex (cut rest)).map (Token.symbol symbol :: ·)

theorem lexFrom_eq_held (scanner : Scanner) (rest : List Char) (hholds : Holds scanner)
    (hends : ∀ c ∈ rest.head?, ∀ literal, scanner = .inNumber literal → isLiteralChar c = false) :
    lexFrom scanner rest =
      scanner.held.bind fun token => (lex (cut rest)).map (token.toList ++ ·) := by
  cases scanner with
  | idle => exact (map_nil_append _).symm
  | inNumber literal =>
    obtain ⟨hne, hliteral⟩ := hholds
    rw [lexFrom, cut_run _ _ hne hliteral (fun c hc => hends c hc literal rfl), lex_cons,
      Scanner.held, value?_eq _ hliteral, Piece.fault?]
    by_cases h : IsAcceptable literal.toList
    · simp [h, Except.bind, Piece.token?]
    · simp [h, Except.bind]
  | inSymbol symbol => rfl

theorem lex_cut_cons (c : Char) (rest : List Char) :
    lex (cut (c :: rest)) = (Scanner.starting c).bind fun next => lexFrom next rest := by
  unfold Scanner.starting
  cases hc : isLiteralChar c with
  | true =>
    change lex (cut ([c] ++ rest)) = lex (cut ((String.singleton c).toList ++ rest))
    rw [String.toList_singleton]
  | false =>
    rw [cut_single hc, lex_cons, Piece.fault?, Piece.token?, lookup_singleTokens]
    cases hsymbol : symbol? c with
    | some symbol => rfl
    | none =>
      cases hblank : isBlank c with
      | true => exact map_nil_append _
      | false => rfl

theorem starting_holds {c : Char} {next : Scanner} (h : Scanner.starting c = .ok next) :
    Holds next := by
  unfold Scanner.starting at h
  split at h
  · rename_i hc
    cases h
    simp [Holds, hc]
  · split at h
    · cases h
      trivial
    · split at h
      · cases h
        trivial
      · cases h

theorem replace_next_holds (scanner : Scanner) (c : Char) : Holds (scanner.replace c).next := by
  unfold Scanner.replace
  split
  · trivial
  · split
    · trivial
    · rename_i hnext
      exact starting_holds hnext

theorem feed_next_holds (scanner : Scanner) (c : Char) (hholds : Holds scanner) :
    Holds (scanner.feed c).next := by
  cases scanner with
  | idle => exact replace_next_holds .idle c
  | inSymbol symbol => exact replace_next_holds (.inSymbol symbol) c
  | inNumber literal =>
    simp only [Scanner.feed]
    split
    · rename_i hc
      refine ⟨by simp, ?_⟩
      intro x hx
      rw [String.toList_push, List.mem_append, List.mem_singleton] at hx
      rcases hx with hx | rfl
      · exact hholds.2 x hx
      · exact hc
    · exact replace_next_holds (.inNumber literal) c

theorem lexFrom_eq_replace (scanner : Scanner) (c : Char) (rest : List Char)
    (hholds : Holds scanner)
    (hends : ∀ literal, scanner = .inNumber literal → isLiteralChar c = false) :
    lexFrom scanner (c :: rest) =
      (scanner.replace c).answer.bind fun token =>
        (lexFrom (scanner.replace c).next rest).map (token.toList ++ ·) := by
  have hhead : ∀ x ∈ (c :: rest).head?, ∀ literal, scanner = .inNumber literal →
      isLiteralChar x = false := by
    intro x hx
    cases hx
    exact hends
  rw [lexFrom_eq_held scanner _ hholds hhead, lex_cut_cons, Scanner.replace]
  cases scanner.held with
  | error fault => rfl
  | ok token => cases Scanner.starting c <;> rfl

/-- One character releases a token or a fault, and the rest of the answer is that of the rest. -/
theorem lexFrom_eq_feed (scanner : Scanner) (c : Char) (rest : List Char)
    (hholds : Holds scanner) :
    lexFrom scanner (c :: rest) =
      (scanner.feed c).answer.bind fun token =>
        (lexFrom (scanner.feed c).next rest).map (token.toList ++ ·) := by
  cases scanner with
  | idle => exact lexFrom_eq_replace .idle c rest hholds nofun
  | inSymbol symbol => exact lexFrom_eq_replace (.inSymbol symbol) c rest hholds nofun
  | inNumber literal =>
    cases hc : isLiteralChar c with
    | true =>
      rw [Scanner.feed, if_pos hc]
      change lex (cut (literal.toList ++ c :: rest)) =
        (lex (cut ((literal.push c).toList ++ rest))).map ([] ++ ·)
      rw [map_nil_append, String.toList_push, List.append_assoc]
      rfl
    | false =>
      rw [Scanner.feed, if_neg (by simp [hc])]
      exact lexFrom_eq_replace (.inNumber literal) c rest hholds (fun _ _ => hc)

theorem collect_eq (scanner : Scanner) (found : List Token) (text : List Char)
    (hholds : Holds scanner) :
    scanner.collect found text = (lexFrom scanner text).map (found.reverse ++ ·) := by
  induction text generalizing scanner found with
  | nil =>
    rw [lexFrom_eq_held scanner [] hholds nofun]
    simp only [Scanner.collect, Scanner.finish]
    cases scanner.held with
    | error fault => rfl
    | ok token => cases token <;> simp [Except.bind, Except.map, cut, lex]
  | cons c rest ih =>
    rw [lexFrom_eq_feed scanner c rest hholds, Scanner.collect]
    cases hanswer : (scanner.feed c).answer with
    | error fault => rfl
    | ok token =>
      simp only [ih _ _ (feed_next_holds scanner c hholds)]
      cases lexFrom (scanner.feed c).next rest with
      | error fault => simp [Except.bind, Except.map]
      | ok tokens => cases token <;> simp [Except.bind, Except.map]

theorem tokenize_eq_lex_cut (text : String) : tokenize text = lex (cut text.toList) := by
  rw [tokenize, collect_eq .idle [] text.toList trivial]
  exact map_nil_append _

/-- A text has one cut, and its tokens are those of the pieces in order unless some piece is at
fault, the first of which is then reported. -/
theorem tokenize_eq_lex_pieces (text : String) :
    ∃ pieces, IsCut text.toList pieces ∧ (∀ others, IsCut text.toList others → others = pieces) ∧
      tokenize text = lex pieces :=
  ⟨cut text.toList, isCut_cut text.toList, fun _ h => h.eq_cut, tokenize_eq_lex_cut text⟩

end InfixArithmetic.MaximalMunch
