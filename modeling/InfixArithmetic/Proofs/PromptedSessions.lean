import InfixArithmetic.Proofs.HandledLines
import InfixArithmetic.Proofs.TakenClusters

/-!
A prompted session writes a prompt before every reply and before whatever ends it. Its replies are
those to the lines as they are edited, and a line that cannot be edited aborts it. Editing changes
the lines with a backspace and no others, so where none of the lines handled has one the session
shows what a batch of the same stream writes, and stops at the same line.
-/
namespace InfixArithmetic.PromptedSessions

open ByteLines HandledLines LineEditing Sessions StreamLines String TakenClusters Transcripts

variable {lines : List (List UInt8)} {texts : List String} {stop : Stop}

/-- What is written after the last reply. -/
def parting : Stop → String
  | .ranOut => prompt ++ farewell
  | .exit => ""
  | .undecodable => prompt

/-- Every piece after a prompt of its own. -/
def afterPrompts (pieces : List String) : String := String.join (pieces.map (prompt ++ ·))

theorem afterPrompts_replies_cons (text : String) (texts : List String) :
    afterPrompts (replies (text :: texts)) =
      prompt ++ (reply text).output ++ afterPrompts (replies texts) := by
  simp only [afterPrompts, replies, List.map_cons, String.join_cons]

/-- A line that does not end the session is answered before the rest. -/
theorem promptedFrom_cons {line : List UInt8} {typed text : String}
    (hline : decode? line = some typed) (htext : edit? typed = some text)
    (hnext : classify text ≠ .exit) (written : String) (rest : List (List UInt8)) :
    promptedFrom written (line :: rest) =
      promptedFrom (written ++ prompt ++ (reply text).output) rest := by
  have hends : (reply text).ends = false := by
    simpa using mt (reply_ends_iff text).mp hnext
  rw [promptedFrom, hline]
  simp only [htext, hends, Bool.false_eq_true, if_false]

theorem promptedFrom_append (h : Handles edit? lines texts .ranOut) (written : String)
    (more : List (List UInt8)) :
    promptedFrom written (lines ++ more) =
      promptedFrom (written ++ afterPrompts (replies texts)) more := by
  generalize hstop : Stop.ranOut = stop at h
  induction h generalizing written with
  | ranOut =>
    rw [List.nil_append]
    simp [afterPrompts, replies]
  | undecodable _ => cases hstop
  | exit _ _ _ => cases hstop
  | next hline htext hnext _ ih =>
    rw [List.cons_append, promptedFrom_cons hline htext hnext, ih _ hstop,
      afterPrompts_replies_cons]
    simp only [String.append_assoc]

theorem promptedFrom_eq (h : Handles edit? lines texts stop) (written : String) :
    promptedFrom written lines =
      .held ⟨written ++ afterPrompts (replies texts) ++ parting stop, stop.ending⟩ := by
  induction h generalizing written with
  | ranOut =>
    simp [promptedFrom, afterPrompts, replies, parting, Stop.ending, String.append_assoc]
  | undecodable hline => simp [promptedFrom, hline, afterPrompts, replies, parting, Stop.ending]
  | exit hline htext hexit =>
    rw [promptedFrom, hline]
    simp [htext, (reply_ends_iff _).mpr hexit, afterPrompts, replies, parting, Stop.ending,
      String.append_assoc]
  | next hline htext hnext _ ih =>
    rw [promptedFrom_cons hline htext hnext, ih, afterPrompts_replies_cons]
    simp only [String.append_assoc]

theorem promptedFrom_of_breaks (h : Breaks edit? lines texts) (written : String) :
    promptedFrom written lines =
      .aborted (written ++ afterPrompts (replies texts) ++ prompt) := by
  obtain ⟨hbefore, hline, htyped⟩ := h
  rw [promptedFrom_append hbefore, promptedFrom, hline]
  simp only [htyped]

/-- What a prompted session has shown with these pieces. -/
def shown (showsBanner : Bool) (pieces : List String) : String :=
  (if showsBanner then banner else "") ++ afterPrompts pieces

/-- What a prompted session leaves behind that has shown these pieces and stopped for this
reason. -/
def interleaved (showsBanner : Bool) (pieces : List String) : Stop → Outcome
  | .ranOut => ⟨shown showsBanner pieces ++ prompt ++ "\nGoodbye!\n", "", 0⟩
  | .exit => ⟨shown showsBanner pieces, "", 0⟩
  | .undecodable =>
    ⟨shown showsBanner pieces ++ prompt, "stream did not contain valid UTF-8\n", 1⟩

theorem outcome_prompted {stream : List UInt8} (h : Handles edit? (cut stream) texts stop)
    (showsBanner : Bool) :
    (prompted showsBanner stream).outcome = interleaved showsBanner (replies texts) stop := by
  have hmessage : undecodableMessage ++ "\n" = "stream did not contain valid UTF-8\n" := by
    decide +kernel
  have hfarewell : farewell = "\nGoodbye!\n" := rfl
  rw [prompted, promptedFrom_eq h]
  cases stop with
  | ranOut =>
    simp [Conversation.outcome, Transcript.outcome, Stop.ending, interleaved, shown, parting,
      hfarewell, String.append_assoc]
  | exit =>
    simp [Conversation.outcome, Transcript.outcome, Stop.ending, interleaved, shown, parting]
  | undecodable =>
    simp [Conversation.outcome, Transcript.outcome, Stop.ending, interleaved, shown, parting,
      hmessage]

/-- What an aborted session shows before the last prompt, and the code it ends with. -/
theorem outcome_prompted_of_breaks {stream : List UInt8} (h : Breaks edit? (cut stream) texts)
    (showsBanner : Bool) :
    (prompted showsBanner stream).outcome.stdout = shown showsBanner (replies texts) ++ prompt ∧
      (prompted showsBanner stream).outcome.code = 101 := by
  rw [prompted, promptedFrom_of_breaks h]
  exact ⟨rfl, rfl⟩

/-- Lines without backspaces are handled as they are. -/
theorem handles_edit?_of_handles (h : Handles some lines texts stop)
    (hplain : ∀ text ∈ texts, '\x08' ∉ text.toList) : Handles edit? lines texts stop := by
  induction h with
  | ranOut => exact .ranOut
  | undecodable hline => exact .undecodable hline
  | exit hline htext hexit =>
    cases htext
    exact .exit hline ((edit?_eq_self_iff _).mpr (hplain _ List.mem_cons_self)) hexit
  | next hline htext hnext _ ih =>
    cases htext
    refine .next hline ((edit?_eq_self_iff _).mpr (hplain _ List.mem_cons_self)) hnext ?_
    exact ih fun text hmem => hplain text (List.mem_cons_of_mem _ hmem)

/-- A prompted session of the stream shows the replies that a batch of it writes, one for each line,
and stops at the same line for the same reason. -/
def Simulates (showsBanner : Bool) (stream : List UInt8) : Prop :=
  ∃ texts stop, Handles some (cut stream) texts stop ∧
    (batch stream).output = String.join (replies texts) ∧
    ((batch stream).ending = .undecodable ↔ stop = .undecodable) ∧
    (prompted showsBanner stream).outcome = interleaved showsBanner (replies texts) stop

theorem ending_eq_undecodable_iff (stop : Stop) :
    stop.ending = .undecodable ↔ stop = .undecodable := by
  cases stop <;> decide

theorem simulates_of_handles {stream : List UInt8} (h : Handles some (cut stream) texts stop)
    (hedited : Handles edit? (cut stream) texts stop) (showsBanner : Bool) :
    Simulates showsBanner stream := by
  refine ⟨texts, stop, h, ?_, ?_, outcome_prompted hedited showsBanner⟩
  · rw [batch_eq h]
  · rw [batch_eq h]
    exact ending_eq_undecodable_iff stop

/-- A prompted session goes through the lines of its stream as they are edited. Each reply follows a
prompt, and the end of the stream, a line that is not a text or one that cannot be edited meets a
last prompt. Editing changes exactly the lines with a backspace. If the clusters of a line are below
256 bytes, each backspace takes away the last one standing; in any line it takes away the bytes that
were kept as its size, and the line cannot be edited exactly if that would cut a character in two.
Where no line that a batch handles has a backspace the session handles the same lines and shows the
replies of the batch. -/
theorem prompted_line_by_line (showsBanner : Bool) (stream : List UInt8) :
    ((∃ texts stop, Handles edit? (cut stream) texts stop ∧
        (prompted showsBanner stream).outcome =
          interleaved showsBanner (replies texts) stop) ∨
      ∃ texts, Breaks edit? (cut stream) texts ∧
        (prompted showsBanner stream).outcome.stdout =
          shown showsBanner (replies texts) ++ prompt ∧
        (prompted showsBanner stream).outcome.code = 101) ∧
    (∀ line : String,
      (edit? line = some line ↔ '\x08' ∉ line.toList) ∧
      ((∀ cluster ∈ clustersOf line, utf8Len cluster < 256) →
        edit? line = some (String.ofList (standing (clustersOf line)).flatten.reverse)) ∧
      (∀ left : String, edit? line = some left ↔
        ∃ sizes, Leaves (clustersOf line) left.toList.reverse sizes) ∧
      (edit? line = none ↔ Severs (clustersOf line))) ∧
    ((∀ texts stop, Handles some (cut stream) texts stop →
        ∀ text ∈ texts, '\x08' ∉ text.toList) →
      Simulates showsBanner stream ∧
        ∀ texts stop, Handles edit? (cut stream) texts stop ↔
          Handles some (cut stream) texts stop) := by
  refine ⟨?_, fun line => ⟨edit?_eq_self_iff line, edit?_of_lt, edit?_eq_some_iff line,
    edit?_eq_none_iff line⟩, fun hplain => ?_⟩
  · rcases exists_handles_or_breaks edit? (cut stream) with ⟨texts, stop, h⟩ | ⟨texts, h⟩
    · exact Or.inl ⟨texts, stop, h, outcome_prompted h showsBanner⟩
    · exact Or.inr ⟨texts, h, outcome_prompted_of_breaks h showsBanner⟩
  · obtain ⟨texts, stop, h⟩ := exists_handles (cut stream)
    have hedited := handles_edit?_of_handles h (hplain texts stop h)
    refine ⟨simulates_of_handles h hedited showsBanner, fun texts' stop' => ?_⟩
    constructor
    · intro hother
      obtain ⟨rfl, rfl⟩ := hother.unique hedited
      exact h
    · intro hother
      obtain ⟨rfl, rfl⟩ := hother.unique h
      exact hedited

/-- A line in which a backspace takes away a letter with its accent, and a stream with an answered
line, a blank one and an exit word before a line with a backspace. -/
theorem prompted_line_by_line_exit :
    ((∀ cluster ∈ clustersOf "7e\u0301\x08", utf8Len cluster < 256) ∧
      edit? "7e\u0301\x08" = some "7") ∧
    (∀ texts stop, Handles some (cut (encoded "7\r\n\nq\n\x08")) texts stop →
        ∀ text ∈ texts, '\x08' ∉ text.toList) ∧
      Simulates true (encoded "7\r\n\nq\n\x08") := by
  obtain ⟨-, hedits, hsimulates⟩ := prompted_line_by_line true (encoded "7\r\n\nq\n\x08")
  have hsmall : ∀ cluster ∈ clustersOf "7e\u0301\x08", utf8Len cluster < 256 := by decide +kernel
  have hleft : String.ofList (standing (clustersOf "7e\u0301\x08")).flatten.reverse = "7" := by
    decide +kernel
  have hlines : IsLines "7\r\n\nq\n\x08".toList ["7", "", "q", "\x08"] :=
    @IsLines.returnFeed ['7'] _ _ (by decide)
      (@IsLines.feed [] _ _ (by decide) (by decide)
        (@IsLines.feed ['q'] _ _ (by decide) (by decide)
          (@IsLines.unended ['\x08'] (by decide) (by decide))))
  have hhandles : Handles some (cut (encoded "7\r\n\nq\n\x08")) ["7", "", "q"] .exit := by
    rw [cut_encoded_eq hlines]
    exact .next (decode?_encoded "7") rfl (by decide +kernel)
      (.next (decode?_encoded "") rfl (by decide +kernel)
        (.exit (decode?_encoded "q") rfl (by decide +kernel)))
  have hplain : ∀ texts stop, Handles some (cut (encoded "7\r\n\nq\n\x08")) texts stop →
      ∀ text ∈ texts, '\x08' ∉ text.toList := by
    intro texts stop h
    rw [(h.unique hhandles).1]
    decide
  have hedit := (hedits "7e\u0301\x08").2.1 hsmall
  rw [hleft] at hedit
  exact ⟨⟨hsmall, hedit⟩, hplain, (hsimulates hplain).1⟩

/-- A batch refuses the backspaces that a prompted session takes for corrections. -/
theorem not_simulates_of_backspaces : ¬ Simulates false (encoded "1+2\x08\x08*3\n") := by
  rintro ⟨texts, stop, h, -, -, houtcome⟩
  have hlines : IsLines "1+2\x08\x08*3\n".toList ["1+2\x08\x08*3"] :=
    @IsLines.feed ['1', '+', '2', '\x08', '\x08', '*', '3'] [] [] (by decide) (by decide) .none
  have hhandles : Handles some (cut (encoded "1+2\x08\x08*3\n")) ["1+2\x08\x08*3"] .ranOut := by
    rw [cut_encoded_eq hlines]
    exact handles_encoded (by decide +kernel)
  have hedited : Handles edit? (cut (encoded "1+2\x08\x08*3\n")) ["1*3"] .ranOut := by
    have hedit : edit? "1+2\x08\x08*3" = some "1*3" := by decide +kernel
    rw [cut_encoded_eq hlines]
    exact .next (decode?_encoded _) hedit (by decide +kernel) .ranOut
  obtain ⟨rfl, rfl⟩ := h.unique hhandles
  rw [outcome_prompted hedited] at houtcome
  revert houtcome
  decide +kernel

end InfixArithmetic.PromptedSessions
