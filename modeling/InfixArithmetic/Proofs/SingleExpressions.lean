import InfixArithmetic.CommandLine
import InfixArithmetic.Proofs.HandledLines
import Mathlib.Data.List.Chain

/-!
An expression has the same answer on the command line and as the only line of a batch. The batch
trims a line and tells exit words and blank lines from expressions before it evaluates it, the
command line evaluates it as it stands. Exit words begin with a letter, which no expression does,
and blank lines have no value, so nothing that has a value is taken for either, and the message of
an empty text is never printed by a batch.
-/
namespace InfixArithmetic.SingleExpressions

open Binary64 BlankText ByteLines CharacterClasses CommandLine DecimalLiterals Evaluation Faults
  HandledLines NumberText PlainReplies PrintedValues QuotedCharacters Screening Sessions StreamLines
  Transcripts UnprintedCharacters

theorem classify_eq_blank_iff (line : String) :
    classify line = .blank ↔ trim line.toList = [] := by
  unfold classify
  cases trim line.toList with
  | nil => simp
  | cons c rest =>
    dsimp only
    split <;> simp

theorem eq_of_classify_eq_expression {line text : String} (h : classify line = .expression text) :
    text = String.ofList (trim line.toList) := by
  unfold classify at h
  split at h
  · cases h
  · split at h
    · cases h
    · cases h
      rfl

theorem toNat_toLower (c : Char) :
    c.toLower.toNat = if 65 ≤ c.toNat ∧ c.toNat ≤ 90 then c.toNat + 32 else c.toNat := by
  have hval : c.val.toNat = c.toNat := rfl
  have hiff : (c.val ≥ 'A'.val ∧ c.val ≤ 'Z'.val) ↔ 65 ≤ c.toNat ∧ c.toNat ≤ 90 := by
    rw [ge_iff_le, UInt32.le_iff_toNat_le, UInt32.le_iff_toNat_le, hval]
    exact Iff.rfl
  unfold Char.toLower
  by_cases h : 65 ≤ c.toNat ∧ c.toNat ≤ 90
  · rw [dif_pos (hiff.mpr h), if_pos h]
    change (c.val + ('a'.val - 'A'.val)).toNat = c.toNat + 32
    have hoffset : ('a'.val - 'A'.val).toNat = 32 := rfl
    rw [UInt32.toNat_add, hoffset, hval]
    omega
  · rw [dif_neg (mt hiff.mp h), if_neg h]

/-- A letter of either case that begins an exit word is foreign to expressions. -/
theorem isForeign_of_toLower {c : Char} (h : c.toLower = 'q' ∨ c.toLower = 'e') :
    c.isAlpha = true ∧ IsForeign c := by
  have hlower : c.toLower.toNat = 113 ∨ c.toLower.toNat = 101 := by
    rcases h with h | h <;> rw [h]
    · exact Or.inl rfl
    · exact Or.inr rfl
  rw [toNat_toLower] at hlower
  have hletters : c.toNat = 81 ∨ c.toNat = 113 ∨ c.toNat = 69 ∨ c.toNat = 101 := by
    split at hlower <;> omega
  rw [← Char.ofNat_toNat c]
  generalize c.toNat = n at hletters
  rcases hletters with rfl | rfl | rfl | rfl <;>
    exact ⟨by decide, (isForeign_iff_not_isAllowed _).mpr (by decide)⟩

/-- An exit word is refused for its first letter, as it was written. -/
theorem evaluate_of_classify_eq_exit {line : String} (h : classify line = .exit) :
    ∃ c rest, trim line.toList = c :: rest ∧ c.isAlpha = true ∧
      evaluate line = .error (.foreignCharacter c) := by
  unfold classify at h
  split at h
  · cases h
  · rename_i hne
    split at h
    · rename_i hword
      cases htrim : trim line.toList with
      | nil => exact absurd htrim (fun hnil => hne hnil)
      | cons c rest =>
        have hlower : c.toLower = 'q' ∨ c.toLower = 'e' := by
          rw [htrim, List.map_cons] at hword
          simp only [exitWords, List.mem_cons, List.not_mem_nil, or_false,
            ← String.toList_inj, String.toList_ofList] at hword
          rcases hword with hquit | hexit | hq
          · exact Or.inl (List.cons.inj hquit).1
          · exact Or.inr (List.cons.inj hexit).1
          · exact Or.inl (List.cons.inj hq).1
        obtain ⟨halpha, hforeign⟩ := isForeign_of_toLower hlower
        refine ⟨c, rest, rfl, halpha, ?_⟩
        have hrefused : isAllowed c = false := (isForeign_iff_not_isAllowed c).mp hforeign
        have hscreen : screen line = .error (.foreignCharacter c) := by
          rw [screen, htrim]
          simp [hrefused]
        rw [evaluate, hscreen]
    · cases h

theorem evaluate_of_classify_eq_blank {line : String} (h : classify line = .blank) :
    evaluate line = .error .emptyExpression := by
  rw [evaluate, screen, (classify_eq_blank_iff line).mp h]

/-- What has a value is neither an exit word nor blank. -/
theorem exists_expression_of_evaluate {line : String} {value : Value}
    (h : evaluate line = .ok value) : ∃ text, classify line = .expression text := by
  cases hline : classify line with
  | expression text => exact ⟨text, rfl⟩
  | blank =>
    rw [evaluate_of_classify_eq_blank hline] at h
    cases h
  | exit =>
    obtain ⟨c, rest, -, -, hfault⟩ := evaluate_of_classify_eq_exit hline
    rw [hfault] at h
    cases h

theorem output_reply_of_expression {line text : String} (h : classify line = .expression text) :
    (reply line).output = report (evaluate line) ++ "\n" := by
  rw [reply, h, eq_of_classify_eq_expression h]
  dsimp only
  rw [answerLine_eq_report, evaluate_trim]

theorem trim_concat {c : Char} (h : isBlank c = true) (text : List Char) :
    trim (text ++ [c]) = trim text := by
  rw [trim_eq, trim_eq, List.dropWhile_append]
  split
  · rename_i hblank
    rw [List.isEmpty_iff.mp hblank, List.dropWhile_cons_of_pos h]
    rfl
  · exact List.rdropWhile_concat_pos isBlank _ c h

theorem reply_of_trim_eq {line other : String} (h : trim line.toList = trim other.toList) :
    reply line = reply other := by
  unfold reply classify
  rw [h]

theorem batch_of_line {stream line : String} (h : IsLines stream.toList [line]) :
    batch (encoded stream) = ⟨(reply line).output, .finished⟩ := by
  have hhandles : ∃ stop, Handles some (cut (encoded stream)) [line] stop ∧
      stop.ending = .finished := by
    rw [cut_encoded_eq h]
    by_cases hexit : classify line = .exit
    · exact ⟨.exit, .exit (decode?_encoded line) rfl hexit, rfl⟩
    · exact ⟨.ranOut, .next (decode?_encoded line) rfl hexit .ranOut, rfl⟩
  obtain ⟨stop, hhandles, hending⟩ := hhandles
  rw [batch_eq hhandles, hending, replies, List.map_singleton, String.join_cons, String.join_nil,
    String.append_empty]

/-- The ends that a line can have: none at the end of the stream, a line feed, or a carriage return
and a line feed. -/
def lineEnds : List String := ["", "\n", "\r\n"]

/-- The batch of one line is its reply, however the line ends. -/
theorem batch_single {text lineEnd : String} (htext : '\n' ∉ text.toList)
    (hend : lineEnd ∈ lineEnds) :
    batch (encoded (text ++ lineEnd)) = ⟨(reply text).output, .finished⟩ := by
  have hself : String.ofList text.toList = text := String.ofList_toList
  simp only [lineEnds, List.mem_cons, List.not_mem_nil, or_false] at hend
  rcases hend with rfl | rfl | rfl
  · rw [String.append_empty]
    by_cases hempty : text = ""
    · rw [hempty]
      rfl
    · have hlines := IsLines.unended (mt String.toList_eq_nil_iff.mp hempty) htext
      rw [hself] at hlines
      exact batch_of_line hlines
  · by_cases hlast : text.toList.getLast? = some '\r'
    · -- The carriage return goes with the line feed, and trimming would have dropped it as well.
      obtain ⟨before, hbefore⟩ := List.getLast?_eq_some_iff.mp hlast
      have hpiece : '\n' ∉ before := by
        intro hmem
        rw [hbefore] at htext
        exact htext (List.mem_append_left _ hmem)
      have hlines : IsLines (text ++ "\n").toList [String.ofList before] := by
        have hchars : (text ++ "\n").toList = before ++ '\r' :: '\n' :: [] := by
          rw [String.toList_append, hbefore, List.append_assoc]
          rfl
        rw [hchars]
        exact .returnFeed hpiece .none
      have hreply : reply (String.ofList before) = reply text := by
        apply reply_of_trim_eq
        rw [String.toList_ofList, hbefore, trim_concat (by decide)]
      rw [batch_of_line hlines, hreply]
    · have hlines : IsLines (text ++ "\n").toList [String.ofList text.toList] := by
        rw [String.toList_append]
        exact .feed htext hlast .none
      rw [hself] at hlines
      exact batch_of_line hlines
  · have hlines : IsLines (text ++ "\r\n").toList [String.ofList text.toList] := by
      rw [String.toList_append]
      exact .returnFeed htext .none
    rw [hself] at hlines
    exact batch_of_line hlines

/-- No E is followed by an m, as it is in the message of an empty text, nor by the end. -/
structure LacksEmpty (text : String) : Prop where
  chain : text.toList.IsChain fun x y => ¬ (x = 'E' ∧ y = 'm')
  last : text.toList.getLast? ≠ some 'E'

instance (text : String) : Decidable (LacksEmpty text) :=
  decidable_of_iff
    ((text.toList.IsChain fun x y => ¬ (x = 'E' ∧ y = 'm')) ∧ text.toList.getLast? ≠ some 'E')
    ⟨fun h => ⟨h.1, h.2⟩, fun h => ⟨h.chain, h.last⟩⟩

theorem LacksEmpty.append {left right : String} (hl : LacksEmpty left) (hr : LacksEmpty right) :
    LacksEmpty (left ++ right) where
  chain := by
    rw [String.toList_append]
    refine hl.chain.append hr.chain ?_
    rintro x hx y - ⟨rfl, -⟩
    exact hl.last hx
  last := by
    rw [String.toList_append, List.getLast?_append]
    intro hlast
    rcases Option.or_eq_some_iff.mp hlast with h | ⟨-, h⟩
    · exact hr.last h
    · exact hl.last h

theorem lacksEmpty_of_not_mem {text : String} (h : 'E' ∉ text.toList) : LacksEmpty text where
  chain := by
    rw [List.isChain_iff_forall_rel_of_append_cons_cons]
    rintro x y before after hsplit ⟨rfl, -⟩
    rw [hsplit] at h
    exact h (by simp)
  last := fun hlast => h (List.mem_of_getLast? hlast)

theorem lacksEmpty_quote (c : Char) : LacksEmpty (quote c) := by
  rcases escaped_cases c with ⟨hself, -⟩ | halphabet
  · rw [quote, hself]
    constructor
    · rw [String.toList_ofList]
      simp
    · rw [String.toList_ofList]
      simp
  · apply lacksEmpty_of_not_mem
    have hletters : 'E' ∉ escapeAlphabet := by decide
    rw [quote, String.toList_ofList]
    intro hmem
    simp only [List.mem_append, List.mem_cons, List.not_mem_nil, or_false] at hmem
    rcases hmem with (heq | hmem) | heq
    · exact absurd heq (by decide)
    · exact hletters (halphabet _ hmem)
    · exact absurd heq (by decide)

/-- Of the messages only that of an empty text begins so; a foreign character stands alone. -/
theorem lacksEmpty_message {fault : EvaluationFault} (hfault : fault ≠ .emptyExpression)
    (h : ∀ literal, fault = .invalidNumber literal →
      ∀ c ∈ literal.toList, isLiteralChar c = true) : LacksEmpty fault.message := by
  have hmalformed : LacksEmpty "Invalid mathematical expression: " :=
    lacksEmpty_of_not_mem (by decide)
  cases fault with
  | emptyExpression => exact absurd rfl hfault
  | foreignCharacter c =>
    exact (lacksEmpty_of_not_mem (by decide +kernel)).append (lacksEmpty_quote c)
  | invalidNumber literal =>
    have hliteral : LacksEmpty literal := by
      apply lacksEmpty_of_not_mem
      intro hmem
      exact absurd (h literal rfl _ hmem) (by decide)
    exact hmalformed.append ((lacksEmpty_of_not_mem (by decide)).append hliteral)
  | ungrammatical fault =>
    have hreason : LacksEmpty fault.reason := by
      cases fault <;> exact lacksEmpty_of_not_mem (by decide)
    exact hmalformed.append hreason
  | divisionByZero => exact lacksEmpty_of_not_mem (by decide)
  | outOfRange => exact hmalformed.append (lacksEmpty_of_not_mem (by decide))

theorem evaluate_ne_emptyExpression {line text : String} (h : classify line = .expression text) :
    evaluate line ≠ .error .emptyExpression := by
  intro hfault
  have hempty : IsTrimmed line.toList [] := fault_of_evaluate hfault
  obtain ⟨lead, trail, hsplit, hlead, htrail⟩ := hempty.split
  have hblank : ∀ c ∈ line.toList, isBlank c = true := by
    intro c hc
    rw [hsplit, List.append_nil, List.mem_append] at hc
    rcases hc with hc | hc
    · exact hlead c hc
    · exact htrail c hc
  have htrim : trim line.toList = [] := by
    rw [trim_eq, List.dropWhile_eq_nil_iff.mpr hblank]
    rfl
  rw [(classify_eq_blank_iff line).mpr htrim] at h
  cases h

theorem lacksEmpty_report {line : String} (h : evaluate line ≠ .error .emptyExpression) :
    LacksEmpty (report (evaluate line)) := by
  cases houtcome : evaluate line with
  | ok value =>
    have hresult : LacksEmpty "Result: " := lacksEmpty_of_not_mem (by decide)
    refine hresult.append (lacksEmpty_of_not_mem fun hmem => ?_)
    rcases (isNumeral_formatValue (isFinite_of_evaluate houtcome)).char hmem with heq | hliteral
    · cases heq
    · exact absurd hliteral (by decide)
  | error fault =>
    have herror : LacksEmpty "Error: " := by decide
    rw [houtcome] at h
    refine herror.append (lacksEmpty_message (fun hfault => h (by rw [hfault])) ?_)
    intro literal hliteral
    rw [hliteral] at houtcome
    exact (literal_of_evaluate houtcome).2

theorem lacksEmpty_reply (line : String) : LacksEmpty (reply line).output := by
  cases hline : classify line with
  | blank =>
    have houtput : (reply line).output = "" := by rw [reply, hline]
    rw [houtput]
    decide
  | exit =>
    have houtput : (reply line).output = thanks := by rw [reply, hline]
    rw [houtput]
    exact lacksEmpty_of_not_mem (by decide)
  | expression text =>
    rw [output_reply_of_expression hline]
    exact (lacksEmpty_report (evaluate_ne_emptyExpression hline)).append (by decide)

theorem lacksEmpty_batch (stream : List UInt8) : LacksEmpty (batch stream).output := by
  obtain ⟨texts, stop, h⟩ := exists_handles (cut stream)
  rw [batch_eq h]
  dsimp only
  clear h
  induction texts with
  | nil => decide
  | cons text texts ih =>
    rw [replies, List.map_cons, String.join_cons]
    exact (lacksEmpty_reply text).append ih

theorem not_infix_batch (stream : List UInt8) :
    ¬ EvaluationFault.emptyExpression.message.toList <:+: (batch stream).output.toList := by
  intro hinfix
  have hchain := List.IsChain.infix (lacksEmpty_batch stream).chain hinfix
  revert hchain
  decide

theorem request_separator (text : String) : request ["--", text] = .evaluate text := by
  have hword : classifyWord "--" = .separator := by decide
  rw [request, requestFrom, hword]
  dsimp only
  rw [ofWords, String.intercalate_singleton]
  exact nofun

theorem result_ne_error (left right : String) : "Result: " ++ left ≠ "Error: " ++ right := by
  intro h
  have hhead := congrArg (fun text => text.toList.head?) h
  have hleft : ("Result: ".toList ++ left.toList).head? = some 'R' := rfl
  have hright : ("Error: ".toList ++ right.toList).head? = some 'E' := rfl
  simp only [String.toList_append, hleft, hright] at hhead
  exact absurd hhead (by decide)

section

variable {text shown message : String} {words : List String}
  (hwords : request words = .evaluate text) (input : List UInt8)

include hwords

theorem run_eq_value_iff :
    run words input = ⟨shown ++ "\n", "", 0⟩ ↔
      report (evaluate text) ++ "\n" = "Result: " ++ shown ++ "\n" := by
  rw [run, hwords, Request.outcome, evaluateOnce]
  cases evaluate text with
  | ok value => simp [report, String.append_assoc]
  | error fault =>
    have hne := (result_ne_error (shown ++ "\n") (fault.message ++ "\n")).symm
    simp [report, String.append_assoc, hne]

theorem run_eq_error_iff :
    run words input = ⟨"", "Error: " ++ message ++ "\n", 1⟩ ↔
      report (evaluate text) ++ "\n" = "Error: " ++ message ++ "\n" := by
  rw [run, hwords, Request.outcome, evaluateOnce]
  cases evaluate text with
  | ok value =>
    have hne := result_ne_error (formatValue value ++ "\n") (message ++ "\n")
    simp [report, String.append_assoc, hne]
  | error fault => simp [report, String.append_assoc]

theorem run_of_error {fault : EvaluationFault} (h : evaluate text = .error fault) :
    run words input = ⟨"", "Error: " ++ fault.message ++ "\n", 1⟩ := by
  rw [run_eq_error_iff hwords, h]
  rfl

theorem exists_run_eq :
    (∃ shown, run words input = ⟨shown ++ "\n", "", 0⟩) ∨
      ∃ message, run words input = ⟨"", "Error: " ++ message ++ "\n", 1⟩ := by
  cases h : evaluate text with
  | ok value => exact Or.inl ⟨formatValue value, by rw [run_eq_value_iff hwords, h]; rfl⟩
  | error fault => exact Or.inr ⟨fault.message, run_of_error hwords input h⟩

end

/-- The command line and a batch answer an expression alike. An exit word and a blank line, which
only a batch has an answer for, are refused on the command line, the one for its first letter and
the other as empty. So nothing that has a value is taken for either, and no batch prints the message
of an empty text. -/
theorem once_agrees_with_batch :
    (∀ (text lineEnd : String) (words : List String) (input : List UInt8),
      '\n' ∉ text.toList → lineEnd ∈ lineEnds → request words = .evaluate text →
      match classify text with
      | .expression _ =>
        (∀ shown, run words input = ⟨shown ++ "\n", "", 0⟩ ↔
          (batch (encoded (text ++ lineEnd))).output = "Result: " ++ shown ++ "\n") ∧
        (∀ message, run words input = ⟨"", "Error: " ++ message ++ "\n", 1⟩ ↔
          (batch (encoded (text ++ lineEnd))).output = "Error: " ++ message ++ "\n") ∧
        ((∃ shown, run words input = ⟨shown ++ "\n", "", 0⟩) ∨
          ∃ message, run words input = ⟨"", "Error: " ++ message ++ "\n", 1⟩)
      | .blank =>
        (batch (encoded (text ++ lineEnd))).output = "" ∧
          evaluate text = .error .emptyExpression ∧
          run words input = ⟨"", "Error: Empty expression\n", 1⟩
      | .exit =>
        (batch (encoded (text ++ lineEnd))).output = thanks ∧
          ∃ c rest, trim text.toList = c :: rest ∧ c.isAlpha = true ∧
            evaluate text = .error (.foreignCharacter c) ∧
            run words input =
              ⟨"", "Error: " ++ (EvaluationFault.foreignCharacter c).message ++ "\n", 1⟩) ∧
    (∀ text : String, request ["--", text] = .evaluate text) ∧
    (∀ (text : String) (value : Value), evaluate text = .ok value →
      ∃ kept, classify text = .expression kept) ∧
    ∀ stream : List UInt8, ¬ "Empty expression".toList <:+: (batch stream).output.toList := by
  refine ⟨?_, request_separator, fun text value => exists_expression_of_evaluate,
    not_infix_batch⟩
  intro text lineEnd words input htext hend hwords
  rw [batch_single htext hend]
  cases hline : classify text with
  | blank =>
    have hfault := evaluate_of_classify_eq_blank hline
    refine ⟨by rw [reply, hline], hfault, ?_⟩
    rw [run_of_error hwords input hfault]
    rfl
  | exit =>
    obtain ⟨c, rest, htrim, halpha, hfault⟩ := evaluate_of_classify_eq_exit hline
    exact ⟨by rw [reply, hline], c, rest, htrim, halpha, hfault, run_of_error hwords input hfault⟩
  | expression kept =>
    dsimp only
    rw [output_reply_of_expression hline]
    exact ⟨fun shown => run_eq_value_iff hwords input,
      fun message => run_eq_error_iff hwords input, exists_run_eq hwords input⟩

/-- An expression that would be an option but for the separator, as a line that ends in a carriage
return and a line feed. -/
theorem once_agrees_with_batch_minus :
    run ["--", "-1 + 2"] [] = ⟨"1\n", "", 0⟩ ∧
      (batch (encoded "-1 + 2\r\n")).output = "Result: 1\n" := by
  have hline : classify "-1 + 2" = .expression "-1 + 2" := by decide +kernel
  have hrun : run ["--", "-1 + 2"] [] = ⟨"1" ++ "\n", "", 0⟩ := by decide +kernel
  have hagrees := once_agrees_with_batch.1 "-1 + 2" "\r\n" ["--", "-1 + 2"] [] (by decide)
    (by decide) (once_agrees_with_batch.2.1 "-1 + 2")
  rw [hline] at hagrees
  exact ⟨hrun, (hagrees.1 "1").mp hrun⟩

end InfixArithmetic.SingleExpressions
