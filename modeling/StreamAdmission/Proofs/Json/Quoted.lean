import StreamAdmission.Json.Document
import StreamAdmission.Json.Lexeme

/-!
# Encoded strings are read back

A character is written as itself or as an escape that stands for it. A string that is written
character by character is therefore read back up to its closing quote, whatever follows.
-/

namespace StreamAdmission.Json

theorem hexQuad?_hexPair : ∀ n < 32,
    hexQuad? '0' '0' (Text.hexDigit (n / 16)) (Text.hexDigit (n % 16)) = some n := by
  decide

theorem readEscape_hexPair {c : Char} (h : c < ' ') (rest : List Char) :
    readEscape ('u' :: '0' :: '0' :: (hexPair c.toNat ++ rest)) = .ok (c, rest) := by
  -- A control character is far below the surrogates, so its number stands for itself.
  have hSmall : c.toNat < 32 := h
  have hHigh : isHighSurrogate c.toNat = false := by
    simp only [isHighSurrogate, Bool.and_eq_false_iff, decide_eq_false_iff_not]
    omega
  have hLow : isLowSurrogate c.toNat = false := by
    simp only [isLowSurrogate, Bool.and_eq_false_iff, decide_eq_false_iff_not]
    omega
  have hQuad : readHexQuad ('0' :: '0' :: (hexPair c.toNat ++ rest)) = .ok (c.toNat, rest) := by
    simp only [hexPair, List.cons_append, List.nil_append, readHexQuad,
      hexQuad?_hexPair c.toNat hSmall]
  simp only [readEscape, readUnicodeEscape, hQuad, hLow, hHigh, Bool.false_eq_true, if_false,
    Char.ofNat_toNat]

/-- A character is written as an escape for it, or it is one that needs none. -/
theorem encodeChar_cases (c : Char) :
    (∃ escape, encodeChar c = '\\' :: escape ∧
      ∀ rest, readEscape (escape ++ rest) = .ok (c, rest)) ∨
    (encodeChar c = [c] ∧ c ≠ '"' ∧ c ≠ '\\' ∧ ¬ c < ' ') := by
  unfold encodeChar
  split
  · rename_i hc
    exact Or.inl ⟨['"'], rfl, fun rest => by rw [hc]; rfl⟩
  rename_i hQuote
  split
  · rename_i hc
    exact Or.inl ⟨['\\'], rfl, fun rest => by rw [hc]; rfl⟩
  rename_i hBackslash
  split
  · rename_i hc
    exact Or.inl ⟨['b'], rfl, fun rest => by rw [hc]; rfl⟩
  split
  · rename_i hc
    exact Or.inl ⟨['t'], rfl, fun rest => by rw [hc]; rfl⟩
  split
  · rename_i hc
    exact Or.inl ⟨['n'], rfl, fun rest => by rw [hc]; rfl⟩
  split
  · rename_i hc
    exact Or.inl ⟨['f'], rfl, fun rest => by rw [hc]; rfl⟩
  split
  · rename_i hc
    exact Or.inl ⟨['r'], rfl, fun rest => by rw [hc]; rfl⟩
  split
  · rename_i hc
    exact Or.inl ⟨'u' :: '0' :: '0' :: hexPair c.toNat, rfl, readEscape_hexPair hc⟩
  · rename_i hVisible
    exact Or.inr ⟨rfl, hQuote, hBackslash, hVisible⟩

theorem readStringChars_escape {escape rest behind chars : List Char} {c : Char}
    (h : readEscape escape = .ok (c, rest)) (hRest : readStringChars rest = .ok (chars, behind)) :
    readStringChars ('\\' :: escape) = .ok (c :: chars, behind) := by
  rw [readStringChars]
  split
  · rename_i hError
    rw [h] at hError
    cases hError
  · rename_i hOk
    obtain ⟨rfl, rfl⟩ := Prod.mk.inj (Except.ok.inj (h.symm.trans hOk))
    rw [hRest]

theorem readStringChars_plain {c : Char} (hQuote : c ≠ '"') (hBackslash : c ≠ '\\')
    (hVisible : ¬ c < ' ') {rest behind chars : List Char}
    (hRest : readStringChars rest = .ok (chars, behind)) :
    readStringChars (c :: rest) = .ok (c :: chars, behind) := by
  rw [readStringChars, if_neg hVisible, hRest]
  · exact fun h => hQuote h
  · exact fun h => hBackslash h

theorem readStringChars_encoded (chars rest : List Char) :
    readStringChars (chars.flatMap encodeChar ++ '"' :: rest) = .ok (chars, rest) := by
  induction chars with
  | nil => rw [List.flatMap_nil, List.nil_append, readStringChars]
  | cons c chars ih =>
    rw [List.flatMap_cons, List.append_assoc]
    rcases encodeChar_cases c with ⟨escape, hEncode, hEscape⟩ | ⟨hEncode, hPlain⟩
    · rw [hEncode]
      exact readStringChars_escape (hEscape _) ih
    · rw [hEncode]
      exact readStringChars_plain hPlain.1 hPlain.2.1 hPlain.2.2 ih

/-- What stands between the quotes of an encoded string. -/
def IsEncoded (text : List Char) (value : String) : Prop :=
  text = value.toList.flatMap encodeChar

theorem IsEncoded.readStringRest_eq {text : List Char} {value : String} (h : IsEncoded text value)
    (rest : List Char) : readStringRest (text ++ '"' :: rest) = .ok (value, rest) := by
  have hChars := readStringChars_encoded value.toList rest
  rw [← show text = value.toList.flatMap encodeChar from h] at hChars
  simp only [readStringRest, hChars, String.ofList_toList]

end StreamAdmission.Json
