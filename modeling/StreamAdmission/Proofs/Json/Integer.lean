import StreamAdmission.Proofs.Json.Number

/-!
# Bounded integers

A reader of integers takes the integers within its bounds, with the white space before them. Between
the quotes of a key there is no room for white space.
-/

namespace StreamAdmission.Json

theorem acceptInteger_eq_ok_iff {expected : String} {low high z : Int} {number : Number}
    {rest behind : List Char} :
    acceptInteger expected low high number rest = .ok (z, behind) ↔
      behind = rest ∧ number.integer? = some z ∧ low ≤ z ∧ z ≤ high := by
  have hBounded : ∀ value : Int,
      (if low ≤ value ∧ value ≤ high then (.ok (value, rest) : Except Failure (Int × List Char))
        else .error (.before (.wrongNumber number expected) rest)) = .ok (z, behind) ↔
      behind = rest ∧ some value = some z ∧ low ≤ z ∧ z ≤ high := by
    intro value
    split
    · rename_i hIn
      constructor
      · intro h
        obtain ⟨rfl, rfl⟩ := Prod.mk.inj (Except.ok.inj h)
        exact ⟨rfl, rfl, hIn⟩
      · rintro ⟨rfl, hz, _⟩
        rw [Option.some.inj hz]
    · rename_i hOut
      refine iff_of_false nofun ?_
      rintro ⟨_, hz, hIn⟩
      rw [Option.some.inj hz] at hOut
      exact hOut hIn
  cases number with
  | natural n => exact hBounded n
  | negative n => exact hBounded (-n)
  | floating isNegative magnitude => exact iff_of_false nofun fun h => nomatch h.2.1

theorem IsInteger.exists_cons {digits : List Char} {z : Int} (h : IsInteger digits z) :
    ∃ c others, digits = c :: others ∧ (c = '-' ∨ isDigit c = true) := by
  cases h with
  | natural hDigits =>
    obtain ⟨c, others, hCons, hc⟩ := hDigits.exists_cons
    exact ⟨c, others, hCons, Or.inr hc⟩
  | negative _ _ => exact ⟨'-', _, rfl, Or.inl rfl⟩

theorem isSpace_of_starts {c : Char} (h : c = '-' ∨ isDigit c = true) : isSpace c = false := by
  rcases h with rfl | h
  · rfl
  · rw [isDigit_iff] at h
    refine Bool.eq_false_iff.mpr fun hSpace => ?_
    rcases isSpace_iff.mp hSpace with rfl | rfl | rfl | rfl <;> exact absurd h.1 (by decide)

/-- A reader of integers reads the number at the front and then tests its bounds. -/
theorem readInteger_of_starts {expected : String} {low high z : Int} {text others rest : List Char}
    {c : Char} (hText : skipSpace text = c :: others) (hc : c = '-' ∨ isDigit c = true) :
    readInteger expected low high text = .ok (z, rest) ↔
      ReadsInteger (readNumber (c :: others)) z rest ∧ low ≤ z ∧ z ≤ high := by
  have hStarts : (decide (c = '-') || isDigit c) = true := by simpa using hc
  rw [readInteger, hText]
  simp only [hStarts, if_true]
  cases hRead : readNumber (c :: others) with
  | error failure => exact iff_of_false nofun fun ⟨⟨_, h, _⟩, _⟩ => nomatch h
  | ok result =>
    obtain ⟨number, behind⟩ := result
    simp only [acceptInteger_eq_ok_iff]
    constructor
    · rintro ⟨rfl, hInteger, hIn⟩
      exact ⟨⟨number, rfl, hInteger⟩, hIn⟩
    · rintro ⟨⟨_, hSame, hInteger⟩, hIn⟩
      obtain ⟨rfl, rfl⟩ := Prod.mk.inj (Except.ok.inj hSame)
      exact ⟨rfl, hInteger, hIn⟩

/-- An integer in front of a text is read if it is within the wanted bounds, with the white space
before it. -/
theorem readInteger_eq_ok_iff {expected : String} {low high z : Int} {text rest : List Char}
    (hLow : minInteger ≤ low) (hHigh : high ≤ maxNatural) :
    readInteger expected low high text = .ok (z, rest) ↔
      ∃ space digits, IsSpacing space ∧ text = space ++ (digits ++ rest) ∧ IsInteger digits z ∧
        low ≤ z ∧ z ≤ high ∧ EndsNumber rest := by
  constructor
  · intro h
    cases hText : skipSpace text with
    | nil =>
      rw [readInteger, hText] at h
      cases h
    | cons c others =>
      by_cases hc : c = '-' ∨ isDigit c = true
      · obtain ⟨hRead, hIn⟩ := (readInteger_of_starts hText hc).mp h
        obtain ⟨digits, hDigits, hInteger, _, _, hEnds⟩ := readsInteger_readNumber_iff.mp hRead
        obtain ⟨_, space, hSpace, hWhole⟩ := skipSpace_eq_cons_iff.mp hText
        rw [hDigits] at hWhole
        exact ⟨space, digits, hSpace, hWhole, hInteger, hIn.1, hIn.2, hEnds⟩
      · have hStarts : (decide (c = '-') || isDigit c) = false := by
          simpa [not_or] using hc
        rw [readInteger, hText] at h
        simp only [hStarts] at h
        cases h
  · rintro ⟨space, digits, hSpace, rfl, hInteger, hzLow, hzHigh, hEnds⟩
    obtain ⟨c, others, rfl, hc⟩ := hInteger.exists_cons
    have hText : skipSpace (space ++ (c :: others ++ rest)) = c :: (others ++ rest) :=
      skipSpace_append_cons hSpace (isSpace_of_starts hc) _
    rw [readInteger_of_starts hText hc, readsInteger_readNumber_iff]
    exact ⟨⟨c :: others, rfl, hInteger, Int.le_trans hLow hzLow, Int.le_trans hzHigh hHigh, hEnds⟩,
      hzLow, hzHigh⟩

/-- A key is read if it is an integer of 64 bits right between its quotes. -/
theorem readIntegerKey_eq_ok_iff {key : Int} {text rest : List Char} :
    readIntegerKey text = .ok (key, rest) ↔
      ∃ digits, text = digits ++ '"' :: rest ∧ IsInteger digits key ∧ minInteger ≤ key ∧
        key ≤ maxInteger := by
  have hLow : minInteger ≤ minInteger := Int.le_refl _
  have hHigh : maxInteger ≤ maxNatural := by decide
  constructor
  · intro h
    unfold readIntegerKey at h
    split at h
    · cases h
    rename_i c others
    split at h
    · rename_i hStarts
      split at h
      · cases h
      · rename_i hRead
        cases h
        obtain ⟨space, digits, hSpace, hText, hInteger, hKeyLow, hKeyHigh, _⟩ :=
          (readInteger_eq_ok_iff hLow hHigh).mp hRead
        have hc : c = '-' ∨ isDigit c = true := by simpa using hStarts
        cases space with
        | nil => exact ⟨digits, hText, hInteger, hKeyLow, hKeyHigh⟩
        | cons b space =>
          obtain ⟨rfl, _⟩ := List.cons.inj hText
          have hSpacing := (isSpacing_cons_iff.mp hSpace).1
          rw [isSpace_of_starts hc] at hSpacing
          cases hSpacing
      · cases h
    · cases h
  · rintro ⟨digits, rfl, hInteger, hKeyLow, hKeyHigh⟩
    obtain ⟨c, others, rfl, hc⟩ := hInteger.exists_cons
    have hStarts : (decide (c = '-') || isDigit c) = true := by simpa using hc
    have hRead : readInteger "i64" minInteger maxInteger (c :: others ++ '"' :: rest) =
        .ok (key, '"' :: rest) :=
      (readInteger_eq_ok_iff hLow hHigh).mpr ⟨[], c :: others, isSpacing_nil, rfl, hInteger,
        hKeyLow, hKeyHigh, endsNumber_cons (by decide) rest⟩
    rw [List.cons_append] at hRead ⊢
    simp only [readIntegerKey, hStarts, if_true, hRead]

end StreamAdmission.Json
