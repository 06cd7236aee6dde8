import InfixArithmetic.ByteLines
import Mathlib.Data.List.Basic

/-!
Line feeds part a stream into lines independently of one another, so a stream that is empty or ends
with a line feed can be cut before anything that follows it. The encoding of a text has a line feed
byte for each line feed character and nowhere else, and carriage returns likewise. Its lines are
therefore the encodings of the lines of the text.
-/
namespace InfixArithmetic.StreamLines

open ByteLines

theorem cutFrom_found (current : List UInt8) (found : List (List UInt8)) (stream : List UInt8) :
    cutFrom current found stream = found.reverse ++ cutFrom current [] stream := by
  induction stream generalizing current found with
  | nil =>
    simp only [cutFrom]
    split <;> simp
  | cons byte rest ih =>
    simp only [cutFrom]
    split
    · rw [ih [] (ended current :: found), ih [] [ended current]]
      simp
    · exact ih (byte :: current) found

theorem cutFrom_piece {piece : List UInt8} (h : lineFeed ∉ piece) (current rest : List UInt8) :
    cutFrom current [] (piece ++ rest) = cutFrom (piece.reverse ++ current) [] rest := by
  induction piece generalizing current with
  | nil => rfl
  | cons byte piece ih =>
    rw [List.mem_cons, not_or] at h
    rw [List.cons_append, cutFrom, if_neg (Ne.symm h.1), ih h.2]
    simp

/-- A line feed ends the first line, and the rest of the stream is cut on its own. -/
theorem cut_line {piece : List UInt8} (h : lineFeed ∉ piece) (rest : List UInt8) :
    cut (piece ++ lineFeed :: rest) = ended piece.reverse :: cut rest := by
  rw [cut, cutFrom_piece h, cutFrom, if_pos rfl, cutFrom_found, List.append_nil]
  rfl

theorem cut_unended {piece : List UInt8} (h : lineFeed ∉ piece) (hne : piece ≠ []) :
    cut piece = [piece] := by
  have hcut := cutFrom_piece h [] []
  rw [List.append_nil, List.append_nil] at hcut
  rw [cut, hcut]
  simp [cutFrom, hne]

theorem cut_append {a b : List UInt8} (h : a = [] ∨ a.getLast? = some lineFeed) :
    cut (a ++ b) = cut a ++ cut b := by
  induction hlength : a.length using Nat.strongRecOn generalizing a with
  | ind length ih =>
    rcases h with rfl | hlast
    · rfl
    · obtain ⟨piece, rest, rfl, hpiece⟩ :=
        List.eq_append_cons_of_mem (List.mem_of_getLast? hlast)
      have hrest : rest = [] ∨ rest.getLast? = some lineFeed := by
        cases rest with
        | nil => exact Or.inl rfl
        | cons byte rest => exact Or.inr (by simpa using hlast)
      have hlt : rest.length < length := by
        rw [← hlength, List.length_append, List.length_cons]
        omega
      rw [List.append_assoc, List.cons_append, cut_line hpiece, cut_line hpiece,
        ih rest.length hlt hrest rfl, List.cons_append]

/-- The bytes of a text in UTF-8. -/
def encoded (text : String) : List UInt8 := text.toUTF8.data.toList

theorem encoded_ofList (chars : List Char) :
    encoded (String.ofList chars) = chars.flatMap String.utf8EncodeChar := by
  rw [encoded, String.toUTF8_eq_toByteArray, String.toByteArray_ofList, List.utf8Encode,
    List.toList_data_toByteArray]

theorem decode?_encoded (text : String) : decode? (encoded text) = some text := by
  have hbytes : (⟨(encoded text).toArray⟩ : ByteArray) = text.toByteArray := by
    rw [encoded, String.toUTF8_eq_toByteArray, Array.toArray_toList]
  rw [decode?, hbytes, String.fromUTF8?, dif_pos text.isValidUTF8]
  rfl

/-- The bytes of a character are that of an ASCII character or lie above all of those. -/
theorem toNat_of_mem_utf8EncodeChar {c : Char} {byte : UInt8}
    (h : byte ∈ String.utf8EncodeChar c) :
    (byte.toNat = c.toNat ∧ String.utf8EncodeChar c = [byte]) ∨ 128 ≤ byte.toNat := by
  have hval : c.val.toNat = c.toNat := rfl
  unfold String.utf8EncodeChar at h ⊢
  simp only [hval] at h ⊢
  split at h
  · rename_i hascii
    rw [if_pos hascii]
    rw [List.mem_singleton] at h
    subst h
    refine Or.inl ⟨?_, rfl⟩
    rw [UInt8.toNat_ofNat']
    omega
  · refine Or.inr ?_
    split at h
    · simp only [List.mem_cons, List.not_mem_nil, or_false] at h
      rcases h with rfl | rfl <;> rw [UInt8.toNat_ofNat'] <;> omega
    · split at h
      · simp only [List.mem_cons, List.not_mem_nil, or_false] at h
        rcases h with rfl | rfl | rfl <;> rw [UInt8.toNat_ofNat'] <;> omega
      · simp only [List.mem_cons, List.not_mem_nil, or_false] at h
        rcases h with rfl | rfl | rfl | rfl <;> rw [UInt8.toNat_ofNat'] <;> omega

/-- An ASCII byte in the encoding of a character is that character. -/
theorem eq_of_mem_utf8EncodeChar {c x : Char} {byte : UInt8}
    (h : byte ∈ String.utf8EncodeChar c) (hbyte : byte.toNat = x.toNat) (hx : x.toNat < 128) :
    c = x := by
  rcases toNat_of_mem_utf8EncodeChar h with ⟨hc, -⟩ | hhigh
  · rw [Char.ext_iff, ← UInt32.toNat_inj]
    exact hc.symm.trans hbyte
  · omega

theorem lineFeed_not_mem_encoded {piece : List Char} (h : '\n' ∉ piece) :
    lineFeed ∉ encoded (String.ofList piece) := by
  intro hmem
  rw [encoded_ofList, List.mem_flatMap] at hmem
  obtain ⟨c, hc, hbyte⟩ := hmem
  have hfeed : c = '\n' := eq_of_mem_utf8EncodeChar hbyte rfl (by decide)
  exact h (hfeed ▸ hc)

theorem getLast?_encoded_ne {piece : List Char} (h : piece.getLast? ≠ some '\r') :
    (encoded (String.ofList piece)).getLast? ≠ some carriageReturn := by
  intro hlast
  rcases List.eq_nil_or_concat piece with rfl | ⟨before, c, rfl⟩
  · cases hlast
  · have hne : String.utf8EncodeChar c ≠ [] := String.utf8EncodeChar_ne_nil
    rw [encoded_ofList, List.concat_eq_append, List.flatMap_append, List.flatMap_singleton,
      List.getLast?_append_of_ne_nil _ hne] at hlast
    have hreturn : c = '\r' :=
      eq_of_mem_utf8EncodeChar (List.mem_of_getLast? hlast) rfl (by decide)
    rw [hreturn] at h
    exact h (by simp)

theorem ended_reverse {piece : List UInt8} (h : piece.getLast? ≠ some carriageReturn) :
    ended piece.reverse = piece := by
  rcases List.eq_nil_or_concat piece with rfl | ⟨before, last, rfl⟩
  · rfl
  · have hne : last ≠ carriageReturn := by
      rintro rfl
      exact h (by simp)
    simp [ended, hne]

theorem ended_reverse_concat (piece : List UInt8) :
    ended (piece ++ [carriageReturn]).reverse = piece := by
  simp [ended]

/-- The lines of a text are its pieces between line feeds. A carriage return directly before a line
feed belongs to neither piece. After the last line feed only a piece that is not empty counts. -/
inductive IsLines : List Char → List String → Prop
  | none : IsLines [] []
  | unended {piece : List Char} (hne : piece ≠ []) (hpiece : '\n' ∉ piece) :
      IsLines piece [String.ofList piece]
  | feed {piece rest : List Char} {lines : List String} (hpiece : '\n' ∉ piece)
      (hlast : piece.getLast? ≠ some '\r') :
      IsLines rest lines → IsLines (piece ++ '\n' :: rest) (String.ofList piece :: lines)
  | returnFeed {piece rest : List Char} {lines : List String} (hpiece : '\n' ∉ piece) :
      IsLines rest lines → IsLines (piece ++ '\r' :: '\n' :: rest) (String.ofList piece :: lines)

theorem exists_isLines (text : List Char) : ∃ lines, IsLines text lines := by
  induction hlength : text.length using Nat.strongRecOn generalizing text with
  | ind length ih =>
    by_cases hmem : '\n' ∈ text
    · obtain ⟨piece, rest, rfl, hpiece⟩ := List.eq_append_cons_of_mem hmem
      have hlt : rest.length < length := by
        rw [← hlength, List.length_append, List.length_cons]
        omega
      obtain ⟨lines, hlines⟩ := ih rest.length hlt rest rfl
      by_cases hlast : piece.getLast? = some '\r'
      · obtain ⟨before, rfl⟩ := List.getLast?_eq_some_iff.mp hlast
        rw [List.mem_append, not_or] at hpiece
        rw [List.append_assoc]
        exact ⟨_, .returnFeed hpiece.1 hlines⟩
      · exact ⟨_, .feed hpiece hlast hlines⟩
    · by_cases hnil : text = []
      · rw [hnil]
        exact ⟨[], .none⟩
      · exact ⟨_, .unended hnil hmem⟩

theorem cut_encoded {text : List Char} {lines : List String} (h : IsLines text lines) :
    cut (encoded (String.ofList text)) = lines.map encoded := by
  have hfeed : String.utf8EncodeChar '\n' = [lineFeed] := rfl
  have hreturn : String.utf8EncodeChar '\r' = [carriageReturn] := rfl
  induction h with
  | none => rfl
  | @unended piece hne hpiece =>
    have hbytes : encoded (String.ofList piece) ≠ [] := by
      intro hnil
      have hdecoded := decode?_encoded (String.ofList piece)
      rw [hnil] at hdecoded
      have hempty : String.ofList piece = "" := (Option.some.inj hdecoded).symm
      exact hne (by simpa using hempty)
    exact cut_unended (lineFeed_not_mem_encoded hpiece) hbytes
  | @feed piece rest lines hpiece hlast _ ih =>
    have hsplit : encoded (String.ofList (piece ++ '\n' :: rest)) =
        encoded (String.ofList piece) ++ lineFeed :: encoded (String.ofList rest) := by
      simp only [encoded_ofList, List.flatMap_append, List.flatMap_cons, hfeed,
        List.singleton_append]
    rw [hsplit, cut_line (lineFeed_not_mem_encoded hpiece),
      ended_reverse (getLast?_encoded_ne hlast), ih, List.map_cons]
  | @returnFeed piece rest lines hpiece _ ih =>
    have hsplit : encoded (String.ofList (piece ++ '\r' :: '\n' :: rest)) =
        (encoded (String.ofList piece) ++ [carriageReturn]) ++
          lineFeed :: encoded (String.ofList rest) := by
      simp only [encoded_ofList, List.flatMap_append, List.flatMap_cons, hfeed, hreturn,
        List.singleton_append, List.append_assoc]
    have hbytes : lineFeed ∉ encoded (String.ofList piece) ++ [carriageReturn] := by
      rw [List.mem_append, not_or]
      exact ⟨lineFeed_not_mem_encoded hpiece, by decide⟩
    rw [hsplit, cut_line hbytes, ended_reverse_concat, ih, List.map_cons]

theorem cut_encoded_eq {text : String} {lines : List String} (h : IsLines text.toList lines) :
    cut (encoded text) = lines.map encoded := by
  have hcut := cut_encoded h
  rwa [String.ofList_toList] at hcut

/-- The stream that a text is encoded in is cut into the lines of the text, and each of them is a
text again. -/
theorem map_decode?_cut {text : String} {lines : List String} (h : IsLines text.toList lines) :
    (cut (encoded text)).map decode? = lines.map some := by
  rw [cut_encoded_eq h, List.map_map]
  exact List.map_congr_left fun line _ => decode?_encoded line

theorem IsLines.unique {text : String} {lines other : List String}
    (h : IsLines text.toList lines) (hother : IsLines text.toList other) : other = lines := by
  have hmap : other.map some = lines.map some := by
    rw [← map_decode?_cut hother, map_decode?_cut h]
  exact List.map_injective_iff.mpr (fun _ _ => Option.some.inj) hmap

end InfixArithmetic.StreamLines
