import InfixArithmetic.CommandLine

/-!
Where the options of a command line end and its expression begins. Only the words in front of the
first that is no option are looked at, and two hyphens put that place where they stand. From there
on every word belongs to the expression, however much it looks like an option, and standard input is
not read.
-/
namespace InfixArithmetic.LeadingWords

open CommandLine Faults Transcripts

/-- What every option begins with. -/
def optionStarts : List String := ["-h", "-V", "--help", "--version", "--no-banner"]

/-- The word neither separates options from the expression nor begins as an option does. -/
def BeginsExpression (word : String) : Prop :=
  word ≠ "--" ∧ ∀ start ∈ optionStarts, ¬ start.toList <+: word.toList

theorem name_of_switch? {name : List Char} {switch : Switch} (h : switch? name = some switch) :
    switch.name.toList = '-' :: '-' :: name := by
  simpa using List.find?_some h

theorem name_mem_optionStarts (switch : Switch) : switch.name ∈ optionStarts := by
  cases switch <;> decide

/-- A word whose name part names a switch begins with that name. -/
theorem name_isPrefix {long : List Char} {switch : Switch}
    (h : switch? (long.takeWhile (· != '=')) = some switch) :
    switch.name.toList <+: '-' :: '-' :: long := by
  rw [name_of_switch? h]
  exact (List.prefix_append_right_inj ['-', '-']).mpr (List.takeWhile_prefix _)

/-- One hyphen and a letter that stands for a switch begin an option. -/
theorem letter_isPrefix {letter : Char} {switch : Switch} (letters : List Char)
    (h : letter? letter = some switch) :
    ∃ start ∈ optionStarts, start.toList <+: '-' :: letter :: letters := by
  unfold letter? at h
  split at h
  · exact ⟨"-h", by decide, letters, rfl⟩
  · exact ⟨"-V", by decide, letters, rfl⟩
  · cases h

theorem classifyWord_of_beginsExpression {word : String} (h : BeginsExpression word) :
    classifyWord word = .plain := by
  obtain ⟨hseparator, hstart⟩ := h
  unfold classifyWord
  split
  · rename_i hword
    exact absurd (String.toList_inj.mp hword) hseparator
  · rename_i long hne hword
    split
    · rfl
    · rename_i switch hswitch
      exact absurd (hword ▸ name_isPrefix hswitch) (hstart _ (name_mem_optionStarts switch))
  · rename_i letter letters _ _ hword
    split
    · rfl
    · rename_i switch hswitch
      obtain ⟨start, hmem, hprefix⟩ := letter_isPrefix letters hswitch
      exact absurd (hword ▸ hprefix) (hstart start hmem)
  · rfl

/-- The words of the expression on a command line. The banner can be switched off once, in front of
them. -/
inductive Expresses : Bool → List String → List String → Prop where
  | separated {showsBanner : Bool} (words : List String) :
      Expresses showsBanner ("--" :: words) words
  | plain {showsBanner : Bool} {word : String} (words : List String)
      (h : classifyWord word = .plain) : Expresses showsBanner (word :: words) (word :: words)
  | switched {words expression : List String} (h : Expresses false words expression) :
      Expresses true ("--no-banner" :: words) expression

theorem ofWords_eq_evaluate_iff {showsBanner : Bool} {words : List String} {text : String} :
    ofWords showsBanner words = .evaluate text ↔
      words ≠ [] ∧ text = String.intercalate " " words := by
  cases words with
  | nil => simp [ofWords]
  | cons word words => simp [ofWords, eq_comm]

theorem eq_of_classifyWord_eq_separator {word : String} (h : classifyWord word = .separator) :
    word = "--" := by
  unfold classifyWord at h
  split at h
  · rename_i hword
    exact String.toList_inj.mp hword
  · split at h
    · cases h
    · split at h <;> cases h
  · split at h
    · cases h
    · split at h <;> cases h
  · cases h

theorem eq_of_classifyWord_eq_noBanner {word : String}
    (h : classifyWord word = .switch .noBanner) : word = "--no-banner" := by
  unfold classifyWord at h
  split at h
  · cases h
  · rename_i long _ hword
    split at h
    · cases h
    · rename_i switch hswitch
      split at h
      · rename_i hvalue
        cases h
        have hlong := List.takeWhile_append_dropWhile (p := (· != '=')) (l := long)
        rw [hvalue, List.append_nil] at hlong
        rw [hlong] at hswitch
        exact String.toList_inj.mp (hword.trans (name_of_switch? hswitch).symm)
      · cases h
  · split at h
    · cases h
    · rename_i switch hletter
      split at h
      · cases h
        unfold letter? at hletter
        split at hletter <;> cases hletter
      · cases h
  · cases h

theorem requestFrom_of_expresses {showsBanner : Bool} {words expression : List String}
    (h : Expresses showsBanner words expression) (hne : expression ≠ []) :
    requestFrom showsBanner words = .evaluate (String.intercalate " " expression) := by
  induction h with
  | separated words => exact ofWords_eq_evaluate_iff.mpr ⟨hne, rfl⟩
  | plain words hplain =>
    rw [requestFrom, hplain]
    exact ofWords_eq_evaluate_iff.mpr ⟨hne, rfl⟩
  | switched _ ih => exact ih hne

theorem exists_expresses_of_requestFrom {showsBanner : Bool} {words : List String} {text : String}
    (h : requestFrom showsBanner words = .evaluate text) :
    ∃ expression, expression ≠ [] ∧ Expresses showsBanner words expression ∧
      text = String.intercalate " " expression := by
  induction words generalizing showsBanner with
  | nil => cases h
  | cons word words ih =>
    rw [requestFrom] at h
    split at h
    · rename_i hseparator
      obtain rfl := eq_of_classifyWord_eq_separator hseparator
      obtain ⟨hne, htext⟩ := ofWords_eq_evaluate_iff.mp h
      exact ⟨words, hne, .separated words, htext⟩
    · rename_i hplain
      obtain ⟨hne, htext⟩ := ofWords_eq_evaluate_iff.mp h
      exact ⟨word :: words, hne, .plain words hplain, htext⟩
    · cases h
    · cases h
    · cases h
    · rename_i hswitch
      split at h
      · rename_i hbanner
        obtain rfl := hbanner
        obtain rfl := eq_of_classifyWord_eq_noBanner hswitch
        obtain ⟨expression, hne, hexpresses, htext⟩ := ih h
        exact ⟨expression, hne, .switched hexpresses, htext⟩
      · cases h

/-- A command line asks for the evaluation of a text exactly if the text joins the words of its
expression, of which there is at least one. -/
theorem request_eq_evaluate_iff {words : List String} {text : String} :
    request words = .evaluate text ↔
      ∃ expression, expression ≠ [] ∧ Expresses true words expression ∧
        text = String.intercalate " " expression := by
  constructor
  · exact exists_expresses_of_requestFrom
  · rintro ⟨expression, hne, hexpresses, rfl⟩
    exact requestFrom_of_expresses hexpresses hne

theorem run_of_expresses {words expression : List String} (h : Expresses true words expression)
    (hne : expression ≠ []) (input : List UInt8) :
    run words input = evaluateOnce (String.intercalate " " expression) := by
  rw [run, request_eq_evaluate_iff.mpr ⟨expression, hne, h, rfl⟩]
  rfl

/-- Words after two hyphens are evaluated as one expression, and so are words of which the first
neither is two hyphens nor begins as an option does, whatever the words after it are. Switching the
banner off in front of them and the bytes of standard input make no difference. -/
theorem run_expression_words (words : List String) (hwords : words ≠ []) (front : List String)
    (hfront : front = [] ∨ front = ["--no-banner"]) (input : List UInt8) :
    run (front ++ "--" :: words) input = evaluateOnce (String.intercalate " " words) ∧
      (BeginsExpression (words.head hwords) →
        run (front ++ words) input = evaluateOnce (String.intercalate " " words)) := by
  have hexpresses : ∀ line, (∀ showsBanner, Expresses showsBanner line words) →
      run (front ++ line) input = evaluateOnce (String.intercalate " " words) := by
    intro line hline
    apply run_of_expresses _ hwords
    rcases hfront with rfl | rfl
    · exact hline true
    · exact .switched (hline false)
  refine ⟨hexpresses _ fun _ => .separated words, fun hfirst => hexpresses _ fun showsBanner => ?_⟩
  obtain ⟨word, rest, rfl⟩ := List.exists_cons_of_ne_nil hwords
  exact .plain rest (classifyWord_of_beginsExpression hfirst)

/-- Hyphens after a negative number, and a word after two hyphens that looks like an option. -/
theorem run_expression_words_hyphens :
    BeginsExpression "-5" ∧
      run ["--no-banner", "-5", "--", "3"] [0xff] = ⟨"-2\n", "", 0⟩ ∧
      run ["--", "--help"] [0xff] =
        ⟨"", "Error: " ++ (EvaluationFault.foreignCharacter 'h').message ++ "\n", 1⟩ := by
  have hbegins : BeginsExpression "-5" := by
    unfold BeginsExpression
    decide
  have hvalue : evaluateOnce "-5 -- 3" = ⟨"-2\n", "", 0⟩ := by decide +kernel
  have hfault : evaluateOnce "--help" =
      ⟨"", "Error: " ++ (EvaluationFault.foreignCharacter 'h').message ++ "\n", 1⟩ := by
    decide +kernel
  refine ⟨hbegins, ?_, ?_⟩
  · rw [← hvalue]
    exact (run_expression_words ["-5", "--", "3"] nofun ["--no-banner"] (Or.inr rfl) [0xff]).2
      hbegins
  · rw [← hfault]
    exact (run_expression_words ["--help"] nofun [] (Or.inl rfl) [0xff]).1

end InfixArithmetic.LeadingWords
