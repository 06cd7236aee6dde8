import InfixArithmetic.Proofs.PlainReplies
import InfixArithmetic.Proofs.StreamLines
import InfixArithmetic.Transcripts

/-!
The lines that a session handles are those up to the first that is an exit word, or before the first
that is not a text. A batch replies to them as they are; a session may also prepare them first, and
then a line that cannot be prepared breaks it off. A stream of whole lines can be handled by a batch
before the stream that follows it, unless the batch stops within it and what follows is not looked
at. A text is answered by one line for each expression among its lines.
-/
namespace InfixArithmetic.HandledLines

open ByteLines Evaluation PlainReplies Sessions StreamLines Transcripts

/-- Why a session handles no further line. -/
inductive Stop where
  | ranOut
  | exit
  | undecodable
deriving DecidableEq

def Stop.ending : Stop → Ending
  | .ranOut | .exit => .finished
  | .undecodable => .undecodable

/-- The lines that a session handles, as they are prepared, and why it stops after them. A line that
cannot be prepared is not handled. -/
inductive Handles (prepare? : String → Option String) :
    List (List UInt8) → List String → Stop → Prop
  | ranOut : Handles prepare? [] [] .ranOut
  | undecodable {line : List UInt8} {rest : List (List UInt8)} (hline : decode? line = none) :
      Handles prepare? (line :: rest) [] .undecodable
  | exit {line : List UInt8} {rest : List (List UInt8)} {typed text : String}
      (hline : decode? line = some typed) (htext : prepare? typed = some text)
      (hexit : classify text = .exit) : Handles prepare? (line :: rest) [text] .exit
  | next {line : List UInt8} {rest : List (List UInt8)} {typed text : String} {texts : List String}
      {stop : Stop} (hline : decode? line = some typed) (htext : prepare? typed = some text)
      (hnext : classify text ≠ .exit) :
      Handles prepare? rest texts stop → Handles prepare? (line :: rest) (text :: texts) stop

/-- The lines that a session handles before one that cannot be prepared. -/
inductive Breaks (prepare? : String → Option String) : List (List UInt8) → List String → Prop
  | unprepared {before rest : List (List UInt8)} {line : List UInt8} {texts : List String}
      {typed : String} (hbefore : Handles prepare? before texts .ranOut)
      (hline : decode? line = some typed) (htyped : prepare? typed = none) :
      Breaks prepare? (before ++ line :: rest) texts

/-- What is written for these lines. -/
def replies (texts : List String) : List String := texts.map fun text => (reply text).output

variable {prepare? : String → Option String} {lines more : List (List UInt8)}
  {texts texts' : List String} {stop stop' : Stop}

theorem exists_handles_or_breaks (prepare? : String → Option String) (lines : List (List UInt8)) :
    (∃ texts stop, Handles prepare? lines texts stop) ∨ ∃ texts, Breaks prepare? lines texts := by
  induction lines with
  | nil => exact Or.inl ⟨[], .ranOut, .ranOut⟩
  | cons line rest ih =>
    cases hline : decode? line with
    | none => exact Or.inl ⟨[], .undecodable, .undecodable hline⟩
    | some typed =>
      cases htext : prepare? typed with
      | none => exact Or.inr ⟨[], .unprepared .ranOut hline htext⟩
      | some text =>
        by_cases hexit : classify text = .exit
        · exact Or.inl ⟨[text], .exit, .exit hline htext hexit⟩
        · rcases ih with ⟨texts, stop, hrest⟩ | ⟨texts, ⟨hbefore, hline', htyped⟩⟩
          · exact Or.inl ⟨text :: texts, stop, .next hline htext hexit hrest⟩
          · exact Or.inr ⟨text :: texts,
              .unprepared (.next hline htext hexit hbefore) hline' htyped⟩

/-- Lines that are left as they are can always be handled. -/
theorem exists_handles (lines : List (List UInt8)) :
    ∃ texts stop, Handles some lines texts stop := by
  rcases exists_handles_or_breaks some lines with hhandles | ⟨texts, ⟨-, -, htyped⟩⟩
  · exact hhandles
  · cases htyped

theorem Handles.unique (h : Handles prepare? lines texts stop)
    (h' : Handles prepare? lines texts' stop') : texts = texts' ∧ stop = stop' := by
  induction h generalizing texts' stop' with
  | ranOut =>
    cases h'
    exact ⟨rfl, rfl⟩
  | undecodable hline =>
    cases h' with
    | undecodable _ => exact ⟨rfl, rfl⟩
    | exit hline' _ _ => simp [hline] at hline'
    | next hline' _ _ _ => simp [hline] at hline'
  | exit hline htext hexit =>
    cases h' with
    | undecodable hline' => simp [hline] at hline'
    | exit hline' htext' _ =>
      cases hline.symm.trans hline'
      cases htext.symm.trans htext'
      exact ⟨rfl, rfl⟩
    | next hline' htext' hnext _ =>
      cases hline.symm.trans hline'
      cases htext.symm.trans htext'
      exact absurd hexit hnext
  | next hline htext hnext _ ih =>
    cases h' with
    | undecodable hline' => simp [hline] at hline'
    | exit hline' htext' hexit =>
      cases hline.symm.trans hline'
      cases htext.symm.trans htext'
      exact absurd hexit hnext
    | next hline' htext' _ hrest =>
      cases hline.symm.trans hline'
      cases htext.symm.trans htext'
      obtain ⟨rfl, rfl⟩ := ih hrest
      exact ⟨rfl, rfl⟩

/-- Lines that do not stop a session leave the lines after them to be handled as on their own. -/
theorem Handles.append (h : Handles prepare? lines texts .ranOut)
    (hmore : Handles prepare? more texts' stop) :
    Handles prepare? (lines ++ more) (texts ++ texts') stop := by
  generalize hstop : Stop.ranOut = first at h
  induction h with
  | ranOut => exact hmore
  | undecodable _ => cases hstop
  | exit _ _ _ => cases hstop
  | next hline htext hnext _ ih => exact .next hline htext hnext (ih hstop)

/-- After the line that stops a session no other is handled. -/
theorem Handles.append_of_ne (h : Handles prepare? lines texts stop) (hstop : stop ≠ .ranOut)
    (more : List (List UInt8)) : Handles prepare? (lines ++ more) texts stop := by
  induction h with
  | ranOut => exact absurd rfl hstop
  | undecodable hline => exact .undecodable hline
  | exit hline htext hexit => exact .exit hline htext hexit
  | next hline htext hnext _ ih => exact .next hline htext hnext (ih hstop)

theorem reply_ends_iff (line : String) : (reply line).ends = true ↔ classify line = .exit := by
  unfold reply
  cases classify line <;> simp

theorem batchFrom_eq (h : Handles some lines texts stop) (written : String) :
    batchFrom written lines = ⟨written ++ String.join (replies texts), stop.ending⟩ := by
  induction h generalizing written with
  | ranOut => simp [batchFrom, replies, Stop.ending]
  | undecodable hline => simp [batchFrom, hline, replies, Stop.ending]
  | exit hline htext hexit =>
    cases htext
    rw [batchFrom, hline]
    simp [(reply_ends_iff _).mpr hexit, replies, Stop.ending]
  | @next line rest typed text texts stop hline htext hnext _ ih =>
    cases htext
    have hends : (reply typed).ends = false := by
      simpa using mt (reply_ends_iff typed).mp hnext
    rw [batchFrom, hline]
    simp only [hends, Bool.false_eq_true, if_false]
    rw [ih, replies, replies, List.map_cons, String.join_cons, String.append_assoc]

theorem batch_eq {stream : List UInt8} (h : Handles some (cut stream) texts stop) :
    batch stream = ⟨String.join (replies texts), stop.ending⟩ := by
  rw [batch, batchFrom_eq h, String.empty_append]

/-- An exit word is among the lines of the stream before the first that is not a text. -/
def MeetsExit (stream : List UInt8) : Prop := ∃ texts, Handles some (cut stream) texts .exit

section

variable {a b : List UInt8} (ha : a = [] ∨ a.getLast? = some lineFeed)

include ha

theorem batch_append (hending : (batch a).ending = .finished) (hexit : ¬ MeetsExit a) :
    batch (a ++ b) = ⟨(batch a).output ++ (batch b).output, (batch b).ending⟩ := by
  obtain ⟨texts, stop, hfirst⟩ := exists_handles (cut a)
  obtain ⟨texts', stop', hsecond⟩ := exists_handles (cut b)
  have hstop : stop = .ranOut := by
    rw [batch_eq hfirst] at hending
    cases stop with
    | ranOut => rfl
    | exit => exact absurd ⟨texts, hfirst⟩ hexit
    | undecodable => cases hending
  subst hstop
  have hboth := hfirst.append hsecond
  rw [← cut_append ha] at hboth
  rw [batch_eq hfirst, batch_eq hsecond, batch_eq hboth, replies, List.map_append,
    String.join_append]
  rfl

theorem batch_append_of_stops (h : MeetsExit a ∨ (batch a).ending = .undecodable) :
    batch (a ++ b) = batch a := by
  obtain ⟨texts, stop, hfirst⟩ := exists_handles (cut a)
  have hstop : stop ≠ .ranOut := by
    rintro rfl
    rcases h with ⟨texts', hexit⟩ | hending
    · cases (hfirst.unique hexit).2
    · rw [batch_eq hfirst] at hending
      cases hending
  have hboth := hfirst.append_of_ne hstop (cut b)
  rw [← cut_append ha] at hboth
  rw [batch_eq hfirst, batch_eq hboth]

end

/-- One line of output is the whole reply. -/
def IsAnswer (line answer : String) : Prop :=
  (reply line).output = answer ++ "\n" ∧ IsPlain answer

/-- Up to an exit word every expression adds one line of output and a blank line none. -/
theorem exists_answers {lines : List String} (h : ∀ line ∈ lines, classify line ≠ .exit) :
    ∃ answers, List.Forall₂ IsAnswer (lines.filter (classify · ≠ .blank)) answers ∧
      String.join (replies lines) = lined answers := by
  induction lines with
  | nil => exact ⟨[], .nil, rfl⟩
  | cons line rest ih =>
    obtain ⟨answers, hanswers, houtput⟩ :=
      ih fun other hother => h other (List.mem_cons_of_mem line hother)
    have hcons : String.join (replies (line :: rest)) =
        (reply line).output ++ lined answers := by
      rw [replies, List.map_cons, String.join_cons, ← houtput]
      rfl
    cases hline : classify line with
    | exit => exact absurd hline (h line List.mem_cons_self)
    | blank =>
      have hempty : (reply line).output = "" := by rw [reply, hline]
      refine ⟨answers, ?_, ?_⟩
      · rw [List.filter_cons_of_neg (by simp [hline])]
        exact hanswers
      · rw [hcons, hempty, String.empty_append]
    | expression text =>
      have hanswer : (reply line).output = report (evaluate text) ++ "\n" := by
        rw [reply, hline, ← answerLine_eq_report]
      refine ⟨report (evaluate text) :: answers, ?_, ?_⟩
      · rw [List.filter_cons_of_pos (by simp [hline])]
        exact .cons ⟨hanswer, isPlain_report text⟩ hanswers
      · rw [hcons, hanswer, lined, lined, List.map_cons, String.join_cons]

theorem handles_encoded {lines : List String} (h : ∀ line ∈ lines, classify line ≠ .exit) :
    Handles some (lines.map encoded) lines .ranOut := by
  induction lines with
  | nil => exact .ranOut
  | cons line rest ih =>
    exact .next (decode?_encoded line) rfl (h line List.mem_cons_self)
      (ih fun other hother => h other (List.mem_cons_of_mem line hother))

/-- The lines of a text are handled up to the first exit word. -/
theorem handles_encoded_takeWhile (lines : List String) :
    (Handles some (lines.map encoded) (lines.takeWhile (classify · ≠ .exit)) .ranOut ∧
      ∀ line ∈ lines, classify line ≠ .exit) ∨
    ∃ line ∈ lines, classify line = .exit ∧
      Handles some (lines.map encoded) (lines.takeWhile (classify · ≠ .exit) ++ [line]) .exit := by
  have hbefore : ∀ line ∈ lines.takeWhile (classify · ≠ .exit), classify line ≠ .exit := by
    intro line hline
    simpa using List.mem_takeWhile_imp hline
  cases hrest : lines.dropWhile (classify · ≠ .exit) with
  | nil =>
    have hall : lines.takeWhile (classify · ≠ .exit) = lines := by
      have hsplit := List.takeWhile_append_dropWhile (p := (classify · ≠ .exit)) (l := lines)
      rwa [hrest, List.append_nil] at hsplit
    rw [hall] at hbefore ⊢
    exact Or.inl ⟨handles_encoded hbefore, hbefore⟩
  | cons line rest =>
    have hsplit := List.takeWhile_append_dropWhile (p := (classify · ≠ .exit)) (l := lines)
    rw [hrest] at hsplit
    have hexit : classify line = .exit := by
      have hhead := List.head?_dropWhile_not (classify · ≠ .exit) lines
      rw [hrest] at hhead
      simpa using hhead
    have hline : line ∈ lines := by
      rw [← hsplit]
      simp
    refine Or.inr ⟨line, hline, hexit, ?_⟩
    have hstop : Handles some ((line :: rest).map encoded) [line] .exit :=
      .exit (decode?_encoded line) rfl hexit
    have hboth := (handles_encoded hbefore).append hstop
    rwa [← List.map_append, hsplit] at hboth

/-- The batch of a text answers the expressions among its lines up to the first exit word, each by
one line and in order, and ends with the thanks if there is an exit word. -/
theorem batch_encoded {text : String} {lines : List String} (h : IsLines text.toList lines) :
    ∃ answers,
      List.Forall₂ IsAnswer
        ((lines.takeWhile (classify · ≠ .exit)).filter (classify · ≠ .blank)) answers ∧
      batch (encoded text) =
        ⟨lined answers ++ (if ∃ line ∈ lines, classify line = .exit then thanks else ""),
          .finished⟩ := by
  have hcut := cut_encoded_eq h
  have hbefore : ∀ line ∈ lines.takeWhile (classify · ≠ .exit), classify line ≠ .exit := by
    intro line hline
    simpa using List.mem_takeWhile_imp hline
  obtain ⟨answers, hanswers, houtput⟩ := exists_answers hbefore
  refine ⟨answers, hanswers, ?_⟩
  rcases handles_encoded_takeWhile lines with ⟨hhandles, hnone⟩ | ⟨line, hline, hexit, hhandles⟩
  · rw [← hcut] at hhandles
    rw [batch_eq hhandles, houtput, if_neg, String.append_empty]
    · rfl
    · rintro ⟨line, hline, hexit⟩
      exact hnone line hline hexit
  · rw [← hcut] at hhandles
    have hthanks : (reply line).output = thanks := by rw [reply, hexit]
    rw [batch_eq hhandles, if_pos ⟨line, hline, hexit⟩, replies, List.map_append,
      String.join_append, ← houtput, replies, List.map_singleton, hthanks]
    simp [Stop.ending]

/-- A batch goes through its stream line by line. A stream that is empty or ends with a line feed,
in which every line is a text and none an exit word, is answered before whatever follows it, and
after any other such stream nothing that follows is looked at. The lines of an encoded text are its
pieces between line feeds, and each expression before the first exit word adds one line of output in
its turn. -/
theorem batch_line_by_line :
    (∀ a b : List UInt8, a = [] ∨ a.getLast? = some lineFeed →
      ((batch a).ending = .finished → ¬ MeetsExit a →
        batch (a ++ b) = ⟨(batch a).output ++ (batch b).output, (batch b).ending⟩) ∧
      (MeetsExit a ∨ (batch a).ending = .undecodable → batch (a ++ b) = batch a)) ∧
    ∀ text : String, ∃ lines,
      (∀ other, IsLines text.toList other ↔ other = lines) ∧
      (cut (encoded text)).map decode? = lines.map some ∧
      ∃ answers,
        List.Forall₂ IsAnswer
          ((lines.takeWhile (classify · ≠ .exit)).filter (classify · ≠ .blank)) answers ∧
        batch (encoded text) =
          ⟨lined answers ++ (if ∃ line ∈ lines, classify line = .exit then thanks else ""),
            .finished⟩ := by
  constructor
  · intro a b ha
    exact ⟨batch_append ha, batch_append_of_stops ha⟩
  · intro text
    obtain ⟨lines, hlines⟩ := exists_isLines text.toList
    exact ⟨lines, fun other => ⟨hlines.unique, fun heq => heq ▸ hlines⟩, map_decode?_cut hlines,
      batch_encoded hlines⟩

/-- An answered line before a stream that is no text, and an exit word before the same stream. -/
theorem batch_line_by_line_before_undecodable :
    (encoded "1+1\n").getLast? = some lineFeed ∧ (batch (encoded "1+1\n")).ending = .finished ∧
      ¬ MeetsExit (encoded "1+1\n") ∧
      batch (encoded "1+1\n" ++ [0xff]) =
        ⟨(batch (encoded "1+1\n")).output ++ (batch [0xff]).output, (batch [0xff]).ending⟩ ∧
      MeetsExit (encoded "q\n") ∧
      batch (encoded "q\n" ++ [0xff]) = batch (encoded "q\n") := by
  have hlast : (encoded "1+1\n").getLast? = some lineFeed := by decide +kernel
  have hlines : IsLines "1+1\n".toList ["1+1"] :=
    @IsLines.feed ['1', '+', '1'] [] [] (by decide) (by decide) .none
  have hhandles : Handles some (cut (encoded "1+1\n")) ["1+1"] .ranOut := by
    rw [cut_encoded_eq hlines]
    exact handles_encoded (by decide +kernel)
  have hending : (batch (encoded "1+1\n")).ending = .finished := by
    rw [batch_eq hhandles]
    rfl
  have hexit : ¬ MeetsExit (encoded "1+1\n") := by
    rintro ⟨texts, h⟩
    cases (h.unique hhandles).2
  have hlines' : IsLines "q\n".toList ["q"] :=
    @IsLines.feed ['q'] [] [] (by decide) (by decide) .none
  have hexit' : MeetsExit (encoded "q\n") := by
    refine ⟨["q"], ?_⟩
    rw [cut_encoded_eq hlines']
    exact .exit (decode?_encoded "q") rfl (by decide +kernel)
  exact ⟨hlast, hending, hexit, (batch_line_by_line.1 _ _ (Or.inr hlast)).1 hending hexit, hexit',
    (batch_line_by_line.1 _ _ (Or.inr (by decide +kernel))).2 (Or.inl hexit')⟩

end InfixArithmetic.HandledLines
