/-!
# Blank characters

White space in the sense of the Unicode property White_Space, and the removal of it from both
ends of a text.
-/

namespace StreamAdmission.Text

/-- A character of the Unicode property White_Space. -/
def isBlank (c : Char) : Bool :=
  ('\t' ≤ c && c ≤ '\r') || c = ' ' || c = '\x85' || c = '\xa0' || c = '\u1680' ||
  ('\u2000' ≤ c && c ≤ '\u200a') || c = '\u2028' || c = '\u2029' || c = '\u202f' ||
  c = '\u205f' || c = '\u3000'

/-- The text without the blanks at its two ends. -/
def trim (text : List Char) : List Char :=
  ((text.dropWhile isBlank).reverse.dropWhile isBlank).reverse

/-- A text is blank if it holds nothing but white space. -/
def IsBlankText (text : List Char) : Prop := ∀ c ∈ text, isBlank c

-- over the characters of the text, and not over all characters
instance (text : List Char) : Decidable (IsBlankText text) :=
  List.decidableBAll (fun c => isBlank c = true) text

theorem dropWhile_isBlank_eq_nil_iff {text : List Char} :
    text.dropWhile isBlank = [] ↔ IsBlankText text := by
  induction text with
  | nil => simp [IsBlankText]
  | cons c rest ih => by_cases hc : isBlank c <;> simp_all [IsBlankText]

/-- Exactly the blank texts have nothing left after trimming. -/
theorem trim_eq_nil_iff {text : List Char} : trim text = [] ↔ IsBlankText text := by
  have back : ∀ s : List Char, IsBlankText s.reverse ↔ IsBlankText s := by simp [IsBlankText]
  rw [trim, List.reverse_eq_nil_iff, dropWhile_isBlank_eq_nil_iff, back,
    ← dropWhile_isBlank_eq_nil_iff, ← dropWhile_isBlank_eq_nil_iff]
  induction text with
  | nil => simp
  | cons c rest ih => by_cases hc : isBlank c <;> simp_all

end StreamAdmission.Text
