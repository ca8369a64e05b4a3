import StreamAdmission.Text.Blank

/-!
# Trimmed texts

What trimming leaves has no blank at its ends, and a text without blanks at its ends is left as it
is.
-/

namespace StreamAdmission.Text

/-- Neither the first nor the last character is blank. -/
def IsTrimmed (text : List Char) : Prop :=
  (∀ c ∈ text.head?, isBlank c = false) ∧ ∀ c ∈ text.getLast?, isBlank c = false

theorem head?_dropWhile_isBlank (text : List Char) :
    ∀ c ∈ (text.dropWhile isBlank).head?, isBlank c = false := by
  intro c hc
  have h := List.head?_dropWhile_not isBlank text
  rw [Option.mem_def.mp hc] at h
  exact h

theorem dropWhile_isBlank_eq_self {text : List Char} (h : ∀ c ∈ text.head?, isBlank c = false) :
    text.dropWhile isBlank = text := by
  cases text with
  | nil => rfl
  | cons c rest => simp [h c rfl]

theorem isBlankText_takeWhile (text : List Char) : IsBlankText (text.takeWhile isBlank) := by
  intro c hc
  exact (List.all_eq_true.mp List.all_takeWhile) c hc

/-- Trimming takes blanks away at the two ends and nothing else. -/
theorem exists_eq_append_trim (text : List Char) :
    ∃ before after, IsBlankText before ∧ IsBlankText after ∧
      text.dropWhile isBlank = trim text ++ after ∧ text = before ++ (trim text ++ after) := by
  let front := text.dropWhile isBlank
  have hfront : text = text.takeWhile isBlank ++ front := List.takeWhile_append_dropWhile.symm
  have hback : front = trim text ++ (front.reverse.takeWhile isBlank).reverse := by
    have h := congrArg List.reverse
      (List.takeWhile_append_dropWhile (p := isBlank) (l := front.reverse))
    rw [List.reverse_append, List.reverse_reverse] at h
    exact h.symm
  refine ⟨text.takeWhile isBlank, (front.reverse.takeWhile isBlank).reverse,
    isBlankText_takeWhile text, ?_, hback, ?_⟩
  · intro c hc
    exact isBlankText_takeWhile _ c (List.mem_reverse.mp hc)
  · rw [← hback]
    exact hfront

theorem isTrimmed_trim (text : List Char) : IsTrimmed (trim text) := by
  constructor
  · intro c hc
    obtain ⟨_, after, _, _, hfront, _⟩ := exists_eq_append_trim text
    apply head?_dropWhile_isBlank text c
    rw [hfront, List.head?_append, Option.mem_def.mp hc]
    rfl
  · intro c hc
    rw [trim, List.getLast?_reverse] at hc
    exact head?_dropWhile_isBlank _ c hc

theorem trim_eq_self {text : List Char} (h : IsTrimmed text) : trim text = text := by
  have hback : ∀ c ∈ text.reverse.head?, isBlank c = false := by
    simpa only [List.head?_reverse] using h.2
  rw [trim, dropWhile_isBlank_eq_self h.1, dropWhile_isBlank_eq_self hback, List.reverse_reverse]

theorem trim_trim (text : List Char) : trim (trim text) = trim text :=
  trim_eq_self (isTrimmed_trim text)

theorem IsBlankText.append {front back : List Char} (hf : IsBlankText front)
    (hb : IsBlankText back) : IsBlankText (front ++ back) := by
  intro c hc
  rcases List.mem_append.mp hc with hc | hc
  · exact hf c hc
  · exact hb c hc

theorem trim_blank_append {blanks : List Char} (h : IsBlankText blanks) (text : List Char) :
    trim (blanks ++ text) = trim text := by
  rw [trim, trim, List.dropWhile_append_of_pos h]

theorem trim_append_blank {blanks : List Char} (h : IsBlankText blanks) (text : List Char) :
    trim (text ++ blanks) = trim text := by
  by_cases hText : IsBlankText text
  · rw [trim_eq_nil_iff.mpr hText, trim_eq_nil_iff.mpr (hText.append h)]
  · have hBack : ∀ c ∈ blanks.reverse, isBlank c = true := by
      intro c hc
      exact h c (List.mem_reverse.mp hc)
    have hFront : (text.dropWhile isBlank).isEmpty = false := by
      rw [List.isEmpty_eq_false_iff, ne_eq, dropWhile_isBlank_eq_nil_iff]
      exact hText
    rw [trim, trim, List.dropWhile_append, hFront, if_neg Bool.false_ne_true,
      List.reverse_append, List.dropWhile_append_of_pos hBack]

theorem mem_of_mem_trim {text : List Char} {c : Char} (h : c ∈ trim text) : c ∈ text := by
  obtain ⟨before, after, _, _, _, hText⟩ := exists_eq_append_trim text
  rw [hText]
  exact List.mem_append_right _ (List.mem_append_left _ h)

theorem isTrimmed_of_forall {text : List Char} (h : ∀ c ∈ text, isBlank c = false) :
    IsTrimmed text :=
  ⟨fun c hc => h c (List.mem_of_head? hc), fun c hc => h c (List.mem_of_getLast? hc)⟩

/-- Two trimmed texts one after the other are trimmed, whatever stands between them. -/
theorem IsTrimmed.append {front back : List Char} (hf : IsTrimmed front) (hb : IsTrimmed back)
    (hne : front ≠ []) (hne' : back ≠ []) (middle : List Char) :
    IsTrimmed (front ++ middle ++ back) := by
  constructor
  · intro c hc
    apply hf.1 c
    obtain ⟨f, rest, rfl⟩ := List.exists_cons_of_ne_nil hne
    simpa using hc
  · intro c hc
    apply hb.2 c
    rw [List.getLast?_append, List.getLast?_eq_some_getLast hne', Option.some_or] at hc
    rw [List.getLast?_eq_some_getLast hne']
    exact hc

end StreamAdmission.Text
