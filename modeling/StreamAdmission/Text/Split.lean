/-!
# Splitting at separators

A text is cut at the last place of a separator, or at every place of it; `join` puts the parts
together again.
-/

namespace StreamAdmission.Text

/-- The two sides of the last `sep` in the text. -/
def splitLast? (sep : Char) : List Char → Option (List Char × List Char)
  | [] => none
  | c :: rest =>
    match splitLast? sep rest with
    | some (before, after) => some (c :: before, after)
    | none => if c = sep then some ([], rest) else none

/-- The parts between the separators, one more than there are separators. -/
def splitAll (sep : Char) : List Char → List (List Char)
  | [] => [[]]
  | c :: rest =>
    if c = sep then [] :: splitAll sep rest
    else
      match splitAll sep rest with
      | [] => [[c]]
      | part :: parts => (c :: part) :: parts

def join (sep : List Char) : List (List Char) → List Char
  | [] => []
  | [part] => part
  | part :: parts => part ++ sep ++ join sep parts

theorem splitLast?_eq_none_iff {sep : Char} {text : List Char} :
    splitLast? sep text = none ↔ sep ∉ text := by
  induction text with
  | nil => simp [splitLast?]
  | cons c rest ih =>
    rw [splitLast?]
    cases h : splitLast? sep rest with
    | none =>
      have := ih.1 h
      by_cases hc : sep = c
      · subst hc; simp
      · simp [hc, this, Ne.symm hc]
    | some parts =>
      have : sep ∈ rest := by
        apply Decidable.byContradiction
        intro hn
        simp [ih.2 hn] at h
      simp [this]

/-- The split at the last separator is the one whose second side is free of it. -/
theorem splitLast?_eq_some_iff {sep : Char} {text before after : List Char} :
    splitLast? sep text = some (before, after) ↔
      text = before ++ sep :: after ∧ sep ∉ after := by
  induction text generalizing before after with
  | nil => simp [splitLast?]
  | cons c rest ih =>
    rw [splitLast?]
    cases h : splitLast? sep rest with
    | none =>
      have hn := splitLast?_eq_none_iff.1 h
      cases before with
      | nil => by_cases hc : c = sep <;> grind
      | cons b before => by_cases hc : c = sep <;> grind
    | some parts =>
      obtain ⟨b, a⟩ := parts
      have hb := ih.1 h
      cases before with
      | nil => grind
      | cons b' before =>
        have := @ih before after
        grind

theorem splitAll_ne_nil (sep : Char) (text : List Char) : splitAll sep text ≠ [] := by
  cases text with
  | nil => simp [splitAll]
  | cons c rest =>
    rw [splitAll]
    split
    · simp
    · split <;> simp

theorem not_mem_of_mem_splitAll {sep : Char} {text part : List Char}
    (h : part ∈ splitAll sep text) : sep ∉ part := by
  induction text generalizing part with
  | nil => simp_all [splitAll]
  | cons c rest ih =>
    rw [splitAll] at h
    split at h
    · rcases List.mem_cons.1 h with rfl | h
      · simp
      · exact ih h
    · split at h
      · grind
      · grind

/-- Joining the parts with the separator gives the text back. -/
theorem join_splitAll (sep : Char) (text : List Char) :
    join [sep] (splitAll sep text) = text := by
  induction text with
  | nil => rfl
  | cons c rest ih =>
    rw [splitAll]
    split
    · rename_i hc
      cases h : splitAll sep rest with
      | nil => exact absurd h (splitAll_ne_nil sep rest)
      | cons part parts => rw [h] at ih; simp [join, ih, hc]
    · cases h : splitAll sep rest with
      | nil => exact absurd h (splitAll_ne_nil sep rest)
      | cons part parts =>
        rw [h] at ih
        cases parts <;> simp_all [join]

end StreamAdmission.Text
