import StreamAdmission.Broker.Topic

/-!
# Literal topics

The search for an unescaped special character, told without the search: no character behind the
first one is special unless a backslash stands before it. Of what comes before a text the search
knows the last character alone, and of the first character only whether it is a backslash.
-/

namespace StreamAdmission.Topic

/-- Every `*`, `?` and `.` behind the first character has a backslash right before it. -/
def IsLiteral (topic : String) : Prop :=
  ∀ (i : Nat) (c : Char), topic.toList[i + 1]? = some c → c = '*' ∨ c = '?' ∨ c = '.' →
    topic.toList[i]? = some '\\'

theorem mem_specials_iff {c : Char} : c ∈ specials ↔ c = '*' ∨ c = '?' ∨ c = '.' := by
  simp [specials]

/-- The special character stands right behind place `i`, and no escape stands there. -/
def FreeBehind (special : Char) (text : List Char) (i : Nat) : Prop :=
  text[i + 1]? = some special ∧ text[i]? ≠ some escape

section Scan
variable {special before : Char}

theorem standsFree_cons (c : Char) (rest : List Char) :
    standsFree special before (c :: rest) =
      (decide (c = special ∧ before ≠ escape) || standsFree special c rest) := by
  rw [standsFree]
  split
  · rename_i hFree
    rw [decide_eq_true hFree, Bool.true_or]
  · rename_i hFree
    rw [decide_eq_false hFree, Bool.false_or]

/-- The places are counted from the character before the text. So they are the places of the rest,
moved by one, when the search has passed a character. -/
theorem standsFree_iff {text : List Char} :
    standsFree special before text = true ↔ ∃ i, FreeBehind special (before :: text) i := by
  induction text generalizing before with
  | nil => simp [standsFree, FreeBehind]
  | cons c rest ih =>
    rw [standsFree_cons, Bool.or_eq_true, decide_eq_true_eq, ih]
    constructor
    · rintro (⟨rfl, hBefore⟩ | ⟨i, hFree⟩)
      · exact ⟨0, rfl, fun h => hBefore (Option.some.inj h)⟩
      · exact ⟨i + 1, hFree⟩
    · rintro ⟨i, hFree⟩
      cases i with
      | zero =>
        apply Or.inl
        exact ⟨Option.some.inj hFree.1, fun h => hFree.2 (congrArg some h)⟩
      | succ i => exact Or.inr ⟨i, hFree⟩

theorem standsFree_append (front back : List Char) :
    standsFree special before (front ++ back) =
      (standsFree special before front || standsFree special (front.getLastD before) back) := by
  induction front generalizing before with
  | nil => rfl
  | cons c front ih =>
    rw [List.cons_append, standsFree_cons, ih, standsFree_cons, List.getLastD_cons, Bool.or_assoc]

theorem standsFree_congr {before' : Char} (h : before ≠ escape) (h' : before' ≠ escape)
    (text : List Char) : standsFree special before text = standsFree special before' text := by
  cases text with
  | nil => rfl
  | cons c rest => simp only [standsFree_cons, h, h', not_false_eq_true, ne_eq, and_true]

end Scan

theorem hasWildcard_of_toList {topic : String} {first : Char} {rest : List Char}
    (h : topic.toList = first :: rest) :
    hasWildcard topic = specials.any fun special => standsFree special first rest := by
  rw [hasWildcard, h]

theorem hasWildcard_singleton_append (first : Char) (rest : String) :
    hasWildcard (String.singleton first ++ rest) =
      specials.any fun special => standsFree special first rest.toList := by
  apply hasWildcard_of_toList
  rw [String.toList_append, String.toList_singleton, List.singleton_append]

/-- Behind a text that is not empty the search goes on as if its last character came first. -/
theorem hasWildcard_append {front : String} {last : Char} (h : front.toList.getLast? = some last)
    (back : String) :
    hasWildcard (front ++ back) =
      (hasWildcard front || hasWildcard (String.singleton last ++ back)) := by
  cases hText : front.toList with
  | nil =>
    rw [hText] at h
    cases h
  | cons first rest =>
    have hLast : rest.getLastD first = last := by
      rw [hText, List.getLast?_cons] at h
      rw [List.getLastD_eq_getLast?]
      exact Option.some.inj h
    have hWhole : (front ++ back).toList = first :: (rest ++ back.toList) := by
      rw [String.toList_append, hText, List.cons_append]
    rw [hasWildcard_of_toList hWhole, hasWildcard_of_toList hText, hasWildcard_singleton_append,
      Bool.eq_iff_iff]
    simp only [standsFree_append, hLast, Bool.or_eq_true, List.any_eq_true, and_or_left, exists_or]

theorem hasWildcard_iff {topic : String} :
    hasWildcard topic = true ↔
      ∃ special ∈ specials, ∃ i, FreeBehind special topic.toList i := by
  unfold hasWildcard
  cases topic.toList with
  | nil => simp [FreeBehind]
  | cons first rest => simp only [List.any_eq_true, standsFree_iff]

/-- A topic is no pattern exactly if it is literal. -/
theorem hasWildcard_eq_false_iff {topic : String} :
    hasWildcard topic = false ↔ IsLiteral topic := by
  rw [← Bool.not_eq_true, hasWildcard_iff]
  constructor
  · intro h i c hc hSpecial
    apply Decidable.byContradiction
    intro hBefore
    exact h ⟨c, mem_specials_iff.mpr hSpecial, i, hc, hBefore⟩
  · rintro hLiteral ⟨c, hSpecial, i, hc, hBefore⟩
    exact hBefore (hLiteral i c hc (mem_specials_iff.mp hSpecial))

theorem hasWildcard_iff_at {topic : String} :
    hasWildcard topic = true ↔ ∃ i, 1 ≤ i ∧ ∃ c, topic.toList[i]? = some c ∧
      (c = '*' ∨ c = '?' ∨ c = '.') ∧ topic.toList[i - 1]? ≠ some '\\' := by
  rw [hasWildcard_iff]
  constructor
  · rintro ⟨c, hSpecial, i, hc, hBefore⟩
    exact ⟨i + 1, Nat.le_add_left 1 i, c, hc, mem_specials_iff.mp hSpecial, hBefore⟩
  · rintro ⟨i, hi, c, hc, hSpecial, hBefore⟩
    obtain ⟨j, rfl⟩ := Nat.exists_eq_add_of_le' hi
    exact ⟨c, mem_specials_iff.mpr hSpecial, j, hc, hBefore⟩

/-- What a pattern is: some character behind the first is special and has no backslash before it. So
a text put behind another makes a pattern as it does behind the last character of the other, and of
what comes first it only matters whether it is a backslash. -/
theorem pattern_meaning (topic : String) :
    (hasWildcard topic = true ↔ ∃ i, 1 ≤ i ∧ ∃ c, topic.toList[i]? = some c ∧
      (c = '*' ∨ c = '?' ∨ c = '.') ∧ topic.toList[i - 1]? ≠ some '\\') ∧
    (topic ≠ "" → ∃ last, topic.toList.getLast? = some last ∧
      ∀ back : String, hasWildcard (topic ++ back) = true ↔
        hasWildcard topic = true ∨ hasWildcard (String.singleton last ++ back) = true) ∧
    ∀ first other : Char, first ≠ '\\' → other ≠ '\\' →
      hasWildcard (String.singleton first ++ topic) =
        hasWildcard (String.singleton other ++ topic) := by
  refine ⟨hasWildcard_iff_at, ?_, ?_⟩
  · intro hText
    have hChars : topic.toList ≠ [] := mt String.toList_eq_nil_iff.mp hText
    refine ⟨topic.toList.getLast hChars, List.getLast?_eq_some_getLast hChars, ?_⟩
    intro back
    rw [hasWildcard_append (List.getLast?_eq_some_getLast hChars), Bool.or_eq_true]
  · intro first other hFirst hOther
    rw [hasWildcard_singleton_append, hasWildcard_singleton_append]
    simp only [standsFree_congr hFirst hOther]

/-- An escape at the end of the text in front holds for the text behind, and only for its first
character; a special character that comes first is none. -/
theorem pattern_meaning_escaped :
    hasWildcard "*a\\*\\" = false ∧
      (hasWildcard ("*a\\*\\" ++ ".eu") = true ↔
        hasWildcard "*a\\*\\" = true ∨ hasWildcard ("\\" ++ ".eu") = true) ∧
      hasWildcard ("*a\\*\\" ++ ".eu") = false ∧ hasWildcard ("*a\\*\\" ++ "..eu") = true ∧
      hasWildcard (String.singleton '*' ++ "..eu") =
        hasWildcard (String.singleton 'a' ++ "..eu") := by
  obtain ⟨_, hSplit, _⟩ := pattern_meaning "*a\\*\\"
  obtain ⟨_, _, hFirst⟩ := pattern_meaning "..eu"
  obtain ⟨last, hLast, hBack⟩ := hSplit (by decide)
  obtain rfl : '\\' = last := by simpa using hLast
  exact ⟨by decide +kernel, hBack ".eu", by decide +kernel, by decide +kernel,
    hFirst '*' 'a' (by decide) (by decide)⟩

end StreamAdmission.Topic
