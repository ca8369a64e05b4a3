import StreamAdmission.Proofs.Text.Trim
import StreamAdmission.Text.Split

/-!
# Joined texts are split where they were joined

Parts that do not hold the separator are found again in the text they were joined to. Blanks at the
ends of a text belong to its first and its last part, so trimming the text changes no trimmed part.
-/

namespace StreamAdmission.Text

theorem splitAll_of_not_mem {sep : Char} {text : List Char} (h : sep ∉ text) :
    splitAll sep text = [text] := by
  induction text with
  | nil => rfl
  | cons c rest ih =>
    obtain ⟨hc, hrest⟩ := not_or.mp (mt List.mem_cons.mpr h)
    rw [splitAll, if_neg (Ne.symm hc), ih hrest]

theorem splitAll_append_sep {sep : Char} {part : List Char} (h : sep ∉ part) (rest : List Char) :
    splitAll sep (part ++ sep :: rest) = part :: splitAll sep rest := by
  induction part with
  | nil => rw [List.nil_append, splitAll, if_pos rfl]
  | cons c part ih =>
    obtain ⟨hc, hpart⟩ := not_or.mp (mt List.mem_cons.mpr h)
    rw [List.cons_append, splitAll, if_neg (Ne.symm hc), ih hpart]

theorem splitAll_append_cons (sep : Char) (front back : List Char) :
    splitAll sep (front ++ sep :: back) = splitAll sep front ++ splitAll sep back := by
  induction front with
  | nil => exact if_pos rfl
  | cons c front ih =>
    rw [List.cons_append, splitAll, splitAll, ih]
    by_cases hc : c = sep
    · rw [if_pos hc, if_pos hc, List.cons_append]
    · rw [if_neg hc, if_neg hc]
      obtain ⟨part, parts, hParts⟩ := List.exists_cons_of_ne_nil (splitAll_ne_nil sep front)
      rw [hParts]
      rfl

theorem join_cons_cons (sep part next : List Char) (parts : List (List Char)) :
    join sep (part :: next :: parts) = part ++ (sep ++ join sep (next :: parts)) :=
  List.append_assoc ..

theorem join_eq_intercalate (sep : List Char) (parts : List (List Char)) :
    join sep parts = sep.intercalate parts := by
  induction parts with
  | nil => rfl
  | cons part parts ih =>
    cases parts with
    | nil => exact List.intercalate_singleton.symm
    | cons next parts => rw [join_cons_cons, ih, List.intercalate_cons_cons, List.append_assoc]

/-- Of a longer separator the end may be counted to the part behind it. -/
theorem join_append_sep (sep pad first : List Char) (rest : List (List Char)) :
    join (sep ++ pad) (first :: rest) = join sep (first :: rest.map (pad ++ ·)) := by
  induction rest generalizing first with
  | nil => rfl
  | cons next rest ih =>
    rw [join_cons_cons, ih, List.map_cons, join_cons_cons]
    cases rest with
    | nil => simp only [List.map_nil, join, List.append_assoc]
    | cons other rest => simp only [List.map_cons, join_cons_cons, List.append_assoc]

theorem splitAll_join {sep : Char} {parts : List (List Char)} (hne : parts ≠ [])
    (h : ∀ part ∈ parts, sep ∉ part) : splitAll sep (join [sep] parts) = parts := by
  induction parts with
  | nil => exact absurd rfl hne
  | cons part parts ih =>
    have hpart : sep ∉ part := h part List.mem_cons_self
    cases parts with
    | nil => exact splitAll_of_not_mem hpart
    | cons next parts =>
      rw [join_cons_cons, List.singleton_append, splitAll_append_sep hpart,
        ih (List.cons_ne_nil _ _) fun p hp => h p (List.mem_cons_of_mem _ hp)]

theorem splitAll_free_append {sep : Char} {front : List Char} (h : sep ∉ front)
    (text : List Char) :
    ∃ part parts, splitAll sep text = part :: parts ∧
      splitAll sep (front ++ text) = (front ++ part) :: parts := by
  obtain ⟨part, parts, hParts⟩ := List.exists_cons_of_ne_nil (splitAll_ne_nil sep text)
  refine ⟨part, parts, hParts, ?_⟩
  induction front with
  | nil => exact hParts
  | cons c front ih =>
    obtain ⟨hc, hFront⟩ := not_or.mp (mt List.mem_cons.mpr h)
    rw [List.cons_append, splitAll, if_neg (Ne.symm hc), ih hFront, List.cons_append]

theorem splitAll_append_free {sep : Char} {back : List Char} (h : sep ∉ back)
    (text : List Char) :
    ∃ parts part, splitAll sep text = parts ++ [part] ∧
      splitAll sep (text ++ back) = parts ++ [part ++ back] := by
  induction text with
  | nil => exact ⟨[], [], rfl, splitAll_of_not_mem h⟩
  | cons c text ih =>
    obtain ⟨parts, part, hText, hBack⟩ := ih
    rw [List.cons_append, splitAll, splitAll, hText, hBack]
    by_cases hc : c = sep
    · rw [if_pos hc, if_pos hc]
      exact ⟨[] :: parts, part, rfl, rfl⟩
    · rw [if_neg hc, if_neg hc]
      cases parts with
      | nil => exact ⟨[], c :: part, rfl, rfl⟩
      | cons first parts => exact ⟨(c :: first) :: parts, part, rfl, rfl⟩

theorem map_trim_splitAll_trim {sep : Char} (h : isBlank sep = false) (text : List Char) :
    (splitAll sep (trim text)).map trim = (splitAll sep text).map trim := by
  have hFree : ∀ {blanks : List Char}, IsBlankText blanks → sep ∉ blanks := by
    intro blanks hBlanks hSep
    rw [hBlanks sep hSep] at h
    cases h
  obtain ⟨before, after, hBefore, hAfter, _, hText⟩ := exists_eq_append_trim text
  obtain ⟨part, parts, hFront, hWhole⟩ :=
    splitAll_free_append (hFree hBefore) (trim text ++ after)
  rw [← hText] at hWhole
  obtain ⟨inner, last, hTrim, hBack⟩ := splitAll_append_free (hFree hAfter) (trim text)
  have hFirst : (splitAll sep text).map trim = (splitAll sep (trim text ++ after)).map trim := by
    rw [hWhole, hFront, List.map_cons, List.map_cons, trim_blank_append hBefore]
  have hLast : (splitAll sep (trim text ++ after)).map trim =
      (splitAll sep (trim text)).map trim := by
    rw [hTrim, hBack, List.map_append, List.map_append, List.map_singleton, List.map_singleton,
      trim_append_blank hAfter]
  exact (hFirst.trans hLast).symm

theorem mem_join_of_mem (sep : List Char) {parts : List (List Char)} {part : List Char} {c : Char}
    (hPart : part ∈ parts) (hc : c ∈ part) : c ∈ join sep parts := by
  induction parts with
  | nil => exact absurd hPart List.not_mem_nil
  | cons first rest ih =>
    cases rest with
    | nil => exact List.mem_singleton.mp hPart ▸ hc
    | cons next rest =>
      rw [join_cons_cons]
      rcases List.mem_cons.mp hPart with rfl | hPart
      · exact List.mem_append_left _ hc
      · exact List.mem_append_right _ (List.mem_append_right _ (ih hPart))

end StreamAdmission.Text
