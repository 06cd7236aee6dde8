import InfixArithmetic.LineEditing
import Mathlib.Data.String.Basic

/-!
What the backspaces in a line take away, cluster by cluster. The clusters of a line are those that a
reader would count in all of it, and a backspace is always one of its own. In a line whose clusters
are smaller than 256 bytes each backspace takes away the last cluster still standing. In any line
the sizes of clusters are kept modulo 256, a backspace takes away as many bytes from the end, and
the line cannot be edited exactly if somewhere those bytes end inside a character. Texts are given
with the last character first, and so are their clusters.
-/
namespace InfixArithmetic.TakenClusters

open GraphemeBreaks LineEditing String

def contextAfter : List Char → Context
  | [] => .start
  | c :: before => (contextAfter before).after c

/-- A cluster ends where the context of all that is before it does not join the next character. -/
def clusters : List Char → List (List Char)
  | [] => []
  | c :: before =>
    match clusters before with
    | [] => [[c]]
    | last :: others =>
      if (contextAfter before).joins (breakClass c) then (c :: last) :: others
      else [c] :: last :: others

def backspace : List Char := ['\x08']

/-- The clusters still standing when each backspace has taken away the last one, if there is one. -/
def standing : List (List Char) → List (List Char)
  | [] => []
  | cluster :: before =>
    if cluster = backspace then (standing before).tail else cluster :: standing before

/-- The text that is left of these clusters, and the sizes of those for which no backspace has come
yet. A backspace takes away so many bytes as the last of these sizes is modulo 256. -/
inductive Leaves : List (List Char) → List Char → List Nat → Prop
  | nothing : Leaves [] [] []
  | typed {before : List (List Char)} {cluster text : List Char} {sizes : List Nat}
      (hcluster : cluster ≠ backspace) :
      Leaves before text sizes →
        Leaves (cluster :: before) (cluster ++ text) (utf8Len cluster :: sizes)
  | idle {before : List (List Char)} {text : List Char} :
      Leaves before text [] → Leaves (backspace :: before) text []
  | taken {before : List (List Char)} {taken text : List Char} {size : Nat} {sizes : List Nat}
      (htaken : utf8Len taken = size % 256) :
      Leaves before (taken ++ text) (size :: sizes) → Leaves (backspace :: before) text sizes

/-- So many bytes at the end of the text end inside a character. -/
def CutsCharacter (text : List Char) (bytes : Nat) : Prop :=
  ∃ late c early, text = late ++ c :: early ∧ utf8Len late < bytes ∧
    bytes < utf8Len late + c.utf8Size

/-- One of the backspaces would cut a character in two. -/
def Severs (clusters : List (List Char)) : Prop :=
  ∃ after before text size sizes, clusters = after ++ backspace :: before ∧
    Leaves before text (size :: sizes) ∧ CutsCharacter text (size % 256)

theorem dropBytes?_eq_some_iff {bytes : Nat} {text rest : List Char} :
    dropBytes? bytes text = some rest ↔ ∃ taken, text = taken ++ rest ∧ utf8Len taken = bytes := by
  fun_induction dropBytes? bytes text with
  | case1 text =>
    constructor
    · rintro ⟨⟩
      exact ⟨[], rfl, rfl⟩
    · rintro ⟨taken, rfl, htaken⟩
      rw [utf8Len_eq_zero.mp htaken, List.nil_append]
  | case2 bytes =>
    constructor
    · nofun
    · rintro ⟨taken, htext, htaken⟩
      rw [(List.append_eq_nil_iff.mp htext.symm).1] at htaken
      cases htaken
  | case3 bytes c text hle ih =>
    rw [ih]
    constructor
    · rintro ⟨taken, rfl, htaken⟩
      refine ⟨c :: taken, rfl, ?_⟩
      rw [utf8Len_cons, htaken, Nat.sub_add_cancel hle]
    · rintro ⟨taken, htext, htaken⟩
      cases taken with
      | nil => cases htaken
      | cons d taken =>
        obtain ⟨rfl, rfl⟩ := List.cons.inj htext
        rw [utf8Len_cons] at htaken
        exact ⟨taken, rfl, Nat.eq_sub_of_add_eq htaken⟩
  | case4 bytes c text hlt =>
    constructor
    · nofun
    · rintro ⟨taken, htext, htaken⟩
      cases taken with
      | nil => cases htaken
      | cons d taken =>
        obtain ⟨rfl, rfl⟩ := List.cons.inj htext
        rw [utf8Len_cons] at htaken
        omega

/-- Bytes from the end of a text are whole characters or end inside one. -/
theorem exists_taken_or_cutsCharacter {text : List Char} {bytes : Nat} (h : bytes ≤ utf8Len text) :
    (∃ taken rest, text = taken ++ rest ∧ utf8Len taken = bytes) ∨ CutsCharacter text bytes := by
  fun_induction dropBytes? bytes text with
  | case1 text => exact Or.inl ⟨[], text, rfl, rfl⟩
  | case2 bytes => cases h
  | case3 bytes c text hle ih =>
    rw [utf8Len_cons] at h
    specialize ih (by omega)
    rcases ih with ⟨taken, rest, rfl, htaken⟩ | ⟨late, d, early, rfl, hlow, hhigh⟩
    · refine Or.inl ⟨c :: taken, rest, rfl, ?_⟩
      rw [utf8Len_cons, htaken, Nat.sub_add_cancel hle]
    · refine Or.inr ⟨c :: late, d, early, rfl, ?_⟩
      rw [utf8Len_cons]
      omega
  | case4 bytes c text hlt =>
    refine Or.inr ⟨[], c, text, rfl, Nat.zero_lt_succ bytes, ?_⟩
    rw [utf8Len_nil]
    omega

/-- Not both. -/
theorem not_cutsCharacter {taken rest : List Char} :
    ¬ CutsCharacter (taken ++ rest) (utf8Len taken) := by
  rintro ⟨late, c, early, htext, hlow, hhigh⟩
  rcases List.append_eq_append_iff.mp htext with ⟨more, hlate, -⟩ | ⟨more, htaken, hmore⟩
  · rw [hlate, utf8Len_append] at hlow
    omega
  · cases more with
    | nil =>
      rw [htaken, List.append_nil] at hlow
      exact Nat.lt_irrefl _ hlow
    | cons d more =>
      obtain ⟨rfl, -⟩ := List.cons.inj hmore
      rw [htaken, utf8Len_append, utf8Len_cons] at hhigh
      omega

/-- The bytes that backspaces would take away if there were one for each size. -/
def exposed : List Nat → Nat
  | [] => 0
  | size :: sizes => size % 256 + exposed sizes

namespace Leaves

variable {cs before after : List (List Char)} {text text' : List Char} {sizes sizes' : List Nat}

theorem unique (h : Leaves cs text sizes) (h' : Leaves cs text' sizes') :
    text = text' ∧ sizes = sizes' := by
  induction h generalizing text' sizes' with
  | nothing =>
    cases h'
    exact ⟨rfl, rfl⟩
  | typed hcluster _ ih =>
    cases h' with
    | typed _ hbefore =>
      obtain ⟨rfl, rfl⟩ := ih hbefore
      exact ⟨rfl, rfl⟩
    | idle _ => exact absurd rfl hcluster
    | taken _ _ => exact absurd rfl hcluster
  | idle _ ih =>
    cases h' with
    | typed hcluster _ => exact absurd rfl hcluster
    | idle hbefore => exact ⟨(ih hbefore).1, rfl⟩
    | taken _ hbefore => cases (ih hbefore).2
  | @taken before taken text size sizes htaken _ ih =>
    cases h' with
    | typed hcluster _ => exact absurd rfl hcluster
    | idle hbefore => cases (ih hbefore).2
    | @taken _ taken' _ size' _ htaken' hbefore =>
      obtain ⟨htext, hsizes⟩ := ih hbefore
      obtain ⟨rfl, rfl⟩ := List.cons.inj hsizes
      have hdrop : dropBytes? (size % 256) (taken ++ text) = some text :=
        dropBytes?_eq_some_iff.mpr ⟨taken, rfl, htaken⟩
      have hdrop' : dropBytes? (size % 256) (taken ++ text) = some text' :=
        dropBytes?_eq_some_iff.mpr ⟨taken', htext, htaken'⟩
      exact ⟨Option.some.inj (hdrop.symm.trans hdrop'), rfl⟩

theorem exists_before (h : Leaves (after ++ before) text sizes) :
    ∃ text sizes, Leaves before text sizes := by
  induction after generalizing text sizes with
  | nil => exact ⟨text, sizes, h⟩
  | cons cluster after ih =>
    cases h with
    | typed _ hbefore => exact ih hbefore
    | idle hbefore => exact ih hbefore
    | taken _ hbefore => exact ih hbefore

/-- The text is long enough for every backspace that could still come. -/
theorem exposed_le (h : Leaves cs text sizes) : exposed sizes ≤ utf8Len text := by
  induction h with
  | nothing => exact Nat.le_refl 0
  | @typed _ cluster text sizes _ _ ih =>
    have hcluster := Nat.mod_le (utf8Len cluster) 256
    rw [exposed, utf8Len_append]
    omega
  | idle _ _ => exact Nat.zero_le _
  | taken htaken _ ih =>
    rw [exposed, utf8Len_append, htaken] at ih
    omega

theorem not_severs (h : Leaves cs text sizes) : ¬ Severs cs := by
  rintro ⟨after, before, left, size, more, rfl, hbefore, hcuts⟩
  obtain ⟨text, sizes, hbackspace⟩ := h.exists_before
  cases hbackspace with
  | typed hcluster _ => exact hcluster rfl
  | idle hidle => cases (hidle.unique hbefore).2
  | taken htaken hfirst =>
    obtain ⟨rfl, hsizes⟩ := hfirst.unique hbefore
    obtain ⟨rfl, -⟩ := List.cons.inj hsizes
    rw [← htaken] at hcuts
    exact not_cutsCharacter hcuts

end Leaves

theorem mem_of_mem_standing {cs : List (List Char)} {cluster : List Char}
    (h : cluster ∈ standing cs) : cluster ∈ cs := by
  induction cs with
  | nil => exact h
  | cons last before ih =>
    unfold standing at h
    split at h
    · exact List.mem_cons_of_mem last (ih (List.mem_of_mem_tail h))
    · rcases List.mem_cons.mp h with rfl | hbefore
      · exact List.mem_cons_self
      · exact List.mem_cons_of_mem last (ih hbefore)

/-- Below 256 bytes a backspace takes away exactly the last cluster still standing. -/
theorem leaves_standing {cs : List (List Char)} (h : ∀ cluster ∈ cs, utf8Len cluster < 256) :
    Leaves cs (standing cs).flatten ((standing cs).map utf8Len) := by
  induction cs with
  | nil => exact .nothing
  | cons cluster before ih =>
    have hbefore := ih fun other hother => h other (List.mem_cons_of_mem cluster hother)
    unfold standing
    split
    · rename_i hbackspace
      rw [hbackspace]
      cases hstanding : standing before with
      | nil =>
        rw [hstanding] at hbefore
        exact .idle hbefore
      | cons last others =>
        have hlast : last ∈ cluster :: before :=
          List.mem_cons_of_mem cluster (mem_of_mem_standing (hstanding ▸ List.mem_cons_self))
        rw [hstanding] at hbefore
        exact .taken (Nat.mod_eq_of_lt (h last hlast)).symm hbefore
    · rename_i hcluster
      exact .typed hcluster hbefore

theorem leaves_flatten {cs : List (List Char)} (h : backspace ∉ cs) :
    Leaves cs cs.flatten (cs.map utf8Len) := by
  induction cs with
  | nil => exact .nothing
  | cons cluster before ih =>
    rw [List.mem_cons, not_or] at h
    exact .typed (Ne.symm h.1) (ih h.2)

theorem flatten_clusters (text : List Char) : (clusters text).flatten = text := by
  induction text with
  | nil => rfl
  | cons c before ih =>
    unfold clusters
    split
    · rename_i hbefore
      rw [← ih, hbefore]
      rfl
    · rename_i last others hbefore
      rw [hbefore] at ih
      rw [← ih]
      split <;> rfl

theorem joins_backspace (context : Context) : context.joins (breakClass '\x08') = false := by
  have hclass : breakClass '\x08' = .control := by decide
  rw [hclass]
  unfold Context.joins
  cases context.last <;> rfl

theorem after_backspace_joins (context : Context) (next : BreakClass) :
    (context.after '\x08').joins next = false := by
  have hlast : (context.after '\x08').last = .control := by
    change breakClass '\x08' = .control
    decide
  unfold Context.joins
  rw [hlast]

theorem clusters_backspace (before : List Char) :
    clusters ('\x08' :: before) = backspace :: clusters before := by
  rw [clusters, joins_backspace]
  cases clusters before <;> rfl

/-- Nothing joins a backspace. -/
theorem ne_backspace_of_joins {before : List Char} {c : Char} {last : List Char}
    {others : List (List Char)} (hclusters : clusters before = last :: others)
    (hjoins : (contextAfter before).joins (breakClass c) = true) : last ≠ backspace := by
  rintro rfl
  have hbefore := flatten_clusters before
  rw [hclusters] at hbefore
  rw [← hbefore] at hjoins
  change ((contextAfter others.flatten).after '\x08').joins _ = true at hjoins
  rw [after_backspace_joins] at hjoins
  cases hjoins

/-- The sizes after a character other than a backspace. -/
def grown (before : List Char) (c : Char) : List Nat → List Nat
  | [] => [c.utf8Size]
  | last :: sizes =>
    if (contextAfter before).joins (breakClass c) then (last + c.utf8Size) :: sizes
    else c.utf8Size :: last :: sizes

theorem leaves_cons {before text : List Char} {sizes : List Nat} {c : Char} (hc : c ≠ '\x08')
    (h : Leaves (clusters before) text sizes) :
    Leaves (clusters (c :: before)) (c :: text) (grown before c sizes) := by
  have hsize : utf8Len [c] = c.utf8Size := Nat.zero_add _
  have hsingle : [c] ≠ backspace := fun heq => hc (List.cons.inj heq).1
  unfold clusters
  split
  · rename_i hbefore
    rw [hbefore] at h
    cases h
    rw [grown, ← hsize]
    exact .typed hsingle .nothing
  · rename_i last others hbefore
    rw [hbefore] at h
    split
    · rename_i hjoins
      cases h with
      | @typed _ _ text sizes _ hothers =>
        rw [grown, if_pos hjoins, ← utf8Len_cons]
        exact .typed (fun heq => hc (List.cons.inj heq).1) hothers
      | idle _ => exact absurd rfl (ne_backspace_of_joins hbefore hjoins)
      | taken _ _ => exact absurd rfl (ne_backspace_of_joins hbefore hjoins)
    · rename_i hjoins
      have hgrown : grown before c sizes = utf8Len [c] :: sizes := by
        rw [hsize]
        cases sizes with
        | nil => rfl
        | cons last sizes => rw [grown, if_neg hjoins]
      rw [hgrown]
      exact .typed hsingle h

theorem enter?_of_ne {c : Char} (hc : c ≠ '\x08') (draft : Draft) :
    draft.enter? c = some ⟨c :: draft.text, draft.grow c, draft.context.after c⟩ :=
  if_neg hc

theorem enter?_backspace_of_nil {draft : Draft} (h : draft.sizes = []) :
    draft.enter? '\x08' = some { draft with context := draft.context.after '\x08' } := by
  rw [Draft.enter?, if_pos rfl, h]

theorem enter?_backspace_of_cons {draft : Draft} {size : UInt8} {sizes : List UInt8}
    (h : draft.sizes = size :: sizes) :
    draft.enter? '\x08' =
      (dropBytes? size.toNat draft.text).map fun text =>
        ⟨text, sizes, draft.context.after '\x08'⟩ := by
  rw [Draft.enter?, if_pos rfl, h]

/-- The draft after a text. -/
def draft? (text : List Char) : Option Draft :=
  text.foldrM (fun c draft => draft.enter? c) .empty

theorem draft?_cons (c : Char) (before : List Char) :
    draft? (c :: before) = (draft? before).bind fun draft => draft.enter? c :=
  List.foldrM_cons

/-- The draft holds what is left of the text and its sizes modulo 256. -/
structure IsDraftOf (text : List Char) (draft : Draft) : Prop where
  context : draft.context = contextAfter text
  leaves : ∃ sizes, Leaves (clusters text) draft.text sizes ∧ draft.sizes = sizes.map UInt8.ofNat

theorem grow_eq {before : List Char} {draft : Draft} {sizes : List Nat} (c : Char)
    (hcontext : draft.context = contextAfter before)
    (hsizes : draft.sizes = sizes.map UInt8.ofNat) :
    draft.grow c = (grown before c sizes).map UInt8.ofNat := by
  unfold Draft.grow
  rw [hsizes, hcontext]
  cases sizes with
  | nil => rfl
  | cons last sizes =>
    simp only [List.map_cons, grown]
    split
    · rw [List.map_cons, UInt8.ofNat_add]
    · rfl

theorem IsDraftOf.enter {before : List Char} {draft next : Draft} {c : Char}
    (h : IsDraftOf before draft) (hnext : draft.enter? c = some next) :
    IsDraftOf (c :: before) next := by
  obtain ⟨hcontext, sizes, hleaves, hsizes⟩ := h
  have hafter : draft.context.after c = contextAfter (c :: before) := by
    rw [hcontext]
    rfl
  by_cases hc : c = '\x08'
  · subst hc
    cases sizes with
    | nil =>
      rw [enter?_backspace_of_nil hsizes] at hnext
      cases hnext
      refine ⟨hafter, [], ?_, hsizes⟩
      rw [clusters_backspace]
      exact .idle hleaves
    | cons size sizes =>
      rw [enter?_backspace_of_cons hsizes] at hnext
      obtain ⟨text, htext, rfl⟩ := Option.map_eq_some_iff.mp hnext
      obtain ⟨taken, hdraft, htaken⟩ := dropBytes?_eq_some_iff.mp htext
      rw [UInt8.toNat_ofNat'] at htaken
      rw [hdraft] at hleaves
      refine ⟨hafter, sizes, ?_, rfl⟩
      rw [clusters_backspace]
      exact .taken htaken hleaves
  · rw [enter?_of_ne hc] at hnext
    cases hnext
    exact ⟨hafter, grown before c sizes, leaves_cons hc hleaves, grow_eq c hcontext hsizes⟩

theorem isDraftOf {text : List Char} {draft : Draft} (h : draft? text = some draft) :
    IsDraftOf text draft := by
  induction text generalizing draft with
  | nil =>
    cases h
    exact ⟨rfl, [], .nothing, rfl⟩
  | cons c before ih =>
    rw [draft?_cons] at h
    obtain ⟨first, hfirst, hnext⟩ := Option.bind_eq_some_iff.mp h
    exact (ih hfirst).enter hnext

/-- A backspace that cuts a character is still there when more has been typed. -/
theorem severs_cons {before : List Char} (h : Severs (clusters before)) (c : Char) :
    Severs (clusters (c :: before)) := by
  obtain ⟨after, rest, text, size, sizes, hclusters, hrest, hcuts⟩ := h
  have hmore : ∀ more, Severs (more ++ backspace :: rest) := fun more =>
    ⟨more, rest, text, size, sizes, rfl, hrest, hcuts⟩
  unfold clusters
  split
  · rename_i hbefore
    rw [hbefore] at hclusters
    cases after <;> cases hclusters
  · rename_i last others hbefore
    split
    · rename_i hjoins
      rw [hbefore] at hclusters
      cases after with
      | nil => exact absurd (List.cons.inj hclusters).1 (ne_backspace_of_joins hbefore hjoins)
      | cons first after =>
        rw [(List.cons.inj hclusters).2]
        exact hmore ((c :: last) :: after)
    · rw [← hbefore, hclusters]
      exact hmore ([c] :: after)

/-- Only a backspace that cuts a character cannot be entered. -/
theorem IsDraftOf.severs {before : List Char} {draft : Draft} {c : Char}
    (h : IsDraftOf before draft) (hnext : draft.enter? c = none) :
    Severs (clusters (c :: before)) := by
  obtain ⟨-, sizes, hleaves, hsizes⟩ := h
  by_cases hc : c = '\x08'
  · subst hc
    cases sizes with
    | nil =>
      rw [enter?_backspace_of_nil hsizes] at hnext
      cases hnext
    | cons size sizes =>
      rw [enter?_backspace_of_cons hsizes, Option.map_eq_none_iff, UInt8.toNat_ofNat'] at hnext
      have hle : size % 256 ≤ utf8Len draft.text :=
        (Nat.le_add_right _ _).trans hleaves.exposed_le
      rw [clusters_backspace]
      refine ⟨[], clusters before, draft.text, size, sizes, rfl, hleaves, ?_⟩
      rcases exists_taken_or_cutsCharacter hle with ⟨taken, rest, htext, htaken⟩ | hcuts
      · rw [dropBytes?_eq_some_iff.mpr ⟨taken, htext, htaken⟩] at hnext
        cases hnext
      · exact hcuts
  · rw [enter?_of_ne hc] at hnext
    cases hnext

theorem severs_of_draft?_eq_none {text : List Char} (h : draft? text = none) :
    Severs (clusters text) := by
  induction text with
  | nil => cases h
  | cons c before ih =>
    rw [draft?_cons] at h
    cases hbefore : draft? before with
    | none => exact severs_cons (ih hbefore) c
    | some draft => exact (isDraftOf hbefore).severs (Option.bind_eq_none_iff.mp h draft hbefore)

/-- With 128 accents of two bytes each a letter has 257 bytes, of which a backspace takes one. -/
example : draft? ('\x08' :: List.replicate 128 '\u0301' ++ ['e']) = none := by decide +kernel

/-- The clusters of a line, the last one first. -/
def clustersOf (line : String) : List (List Char) := clusters line.toList.reverse

theorem edit?_eq (line : String) :
    edit? line =
      (draft? line.toList.reverse).map fun draft => String.ofList draft.text.reverse := by
  rw [edit?, draft?, ← List.foldlM_reverse, List.reverse_reverse]

/-- A line is edited into what its backspaces leave. -/
theorem edit?_eq_some_iff (line left : String) :
    edit? line = some left ↔ ∃ sizes, Leaves (clustersOf line) left.toList.reverse sizes := by
  rw [edit?_eq]
  constructor
  · intro h
    obtain ⟨draft, hdraft, rfl⟩ := Option.map_eq_some_iff.mp h
    obtain ⟨-, sizes, hleaves, -⟩ := isDraftOf hdraft
    rw [String.toList_ofList, List.reverse_reverse]
    exact ⟨sizes, hleaves⟩
  · rintro ⟨sizes, hleft⟩
    cases hdraft : draft? line.toList.reverse with
    | none => exact absurd (severs_of_draft?_eq_none hdraft) hleft.not_severs
    | some draft =>
      obtain ⟨-, sizes, hleaves, -⟩ := isDraftOf hdraft
      rw [Option.map_some, (hleaves.unique hleft).1, List.reverse_reverse, String.ofList_toList]

/-- It cannot be edited exactly if one of its backspaces would cut a character in two. -/
theorem edit?_eq_none_iff (line : String) : edit? line = none ↔ Severs (clustersOf line) := by
  rw [edit?_eq, Option.map_eq_none_iff]
  constructor
  · exact severs_of_draft?_eq_none
  · intro hsevers
    cases hdraft : draft? line.toList.reverse with
    | none => rfl
    | some draft =>
      obtain ⟨-, sizes, hleaves, -⟩ := isDraftOf hdraft
      exact absurd hsevers hleaves.not_severs

theorem backspace_not_mem_enter? {draft next : Draft} {c : Char} (h : '\x08' ∉ draft.text)
    (hnext : draft.enter? c = some next) : '\x08' ∉ next.text := by
  by_cases hc : c = '\x08'
  · subst hc
    cases hsizes : draft.sizes with
    | nil =>
      rw [enter?_backspace_of_nil hsizes] at hnext
      cases hnext
      exact h
    | cons size sizes =>
      rw [enter?_backspace_of_cons hsizes] at hnext
      obtain ⟨text, htext, rfl⟩ := Option.map_eq_some_iff.mp hnext
      obtain ⟨taken, hdraft, -⟩ := dropBytes?_eq_some_iff.mp htext
      rw [hdraft] at h
      exact fun hmem => h (List.mem_append_right taken hmem)
  · rw [enter?_of_ne hc] at hnext
    cases hnext
    rw [List.mem_cons, not_or]
    exact ⟨Ne.symm hc, h⟩

theorem backspace_not_mem_draft? {text : List Char} {draft : Draft} (h : draft? text = some draft) :
    '\x08' ∉ draft.text := by
  induction text generalizing draft with
  | nil =>
    cases h
    exact List.not_mem_nil
  | cons c before ih =>
    rw [draft?_cons] at h
    obtain ⟨first, hfirst, hnext⟩ := Option.bind_eq_some_iff.mp h
    exact backspace_not_mem_enter? (ih hfirst) hnext

/-- Only a line without backspaces stays as it is, and no backspace is left in a line. -/
theorem edit?_eq_self_iff (line : String) : edit? line = some line ↔ '\x08' ∉ line.toList := by
  constructor
  · intro h
    rw [edit?_eq] at h
    obtain ⟨draft, hdraft, hline⟩ := Option.map_eq_some_iff.mp h
    rw [← hline, String.toList_ofList, List.mem_reverse]
    exact backspace_not_mem_draft? hdraft
  · intro h
    have hclusters : backspace ∉ clustersOf line := by
      intro hmem
      have hflat := List.mem_flatten_of_mem hmem List.mem_cons_self
      rw [clustersOf, flatten_clusters, List.mem_reverse] at hflat
      exact h hflat
    have hleaves := leaves_flatten hclusters
    rw [clustersOf, flatten_clusters] at hleaves
    exact (edit?_eq_some_iff line line).mpr ⟨_, hleaves⟩

/-- In a line of clusters below 256 bytes the clusters that no backspace has taken away are left. -/
theorem edit?_of_lt {line : String} (h : ∀ cluster ∈ clustersOf line, utf8Len cluster < 256) :
    edit? line = some (String.ofList (standing (clustersOf line)).flatten.reverse) := by
  rw [edit?_eq_some_iff, String.toList_ofList, List.reverse_reverse]
  exact ⟨_, leaves_standing h⟩

end InfixArithmetic.TakenClusters
