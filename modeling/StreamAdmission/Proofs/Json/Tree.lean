import StreamAdmission.Proofs.Json.Integer
import StreamAdmission.Proofs.Json.Object
import StreamAdmission.Proofs.Json.Quoted

/-!
# Values as they are written

The grammar of values of any kind. Of a number only the spelling is kept, since nobody reads the
numbers that are passed over; of a text only what it stands for, since a character may be written as
itself or as an escape. Escapes of surrogates come in pairs.
-/

namespace StreamAdmission.Json

/-- A value of any kind; a number is kept as it is written. -/
inductive Tree where
  | null
  | boolean (value : Bool)
  | number (digits : List Char)
  | text (value : String)
  | list (items : List Tree)
  | object (members : List (String × Tree))

/-! ### Texts between quotes -/

/-- One character as it may stand between quotes. -/
inductive CharText : List Char → Char → Prop where
  | plain {c : Char} (not_quote : c ≠ '"') (not_backslash : c ≠ '\\') (visible : ¬ c < ' ') :
    CharText [c] c
  | escape {letter c : Char} (stands_for : simpleEscape? letter = some c) : CharText ['\\', letter] c
  | unicode {a b c d : Char} {n : Nat} (digits : hexQuad? a b c d = some n)
    (not_low : isLowSurrogate n = false) (not_high : isHighSurrogate n = false) :
    CharText ['\\', 'u', a, b, c, d] (Char.ofNat n)
  | pair {a b c d a' b' c' d' : Char} {high low : Nat} (digits : hexQuad? a b c d = some high)
    (is_high : isHighSurrogate high = true) (digits' : hexQuad? a' b' c' d' = some low)
    (is_low : isLowSurrogate low = true) :
    CharText ['\\', 'u', a, b, c, d, '\\', 'u', a', b', c', d']
      (Char.ofNat (0x10000 + (high - 0xD800) * 0x400 + (low - 0xDC00)))

inductive CharsText : List Char → List Char → Prop where
  | nil : CharsText [] []
  | cons {text rest chars : List Char} {c : Char} (h : CharText text c)
    (others : CharsText rest chars) : CharsText (text ++ rest) (c :: chars)

/-- What may stand between the quotes of a text. -/
def StringText (text : List Char) (value : String) : Prop := CharsText text value.toList

theorem isLowSurrogate_of_high {n : Nat} (h : isHighSurrogate n = true) :
    isLowSurrogate n = false := by
  simp only [isHighSurrogate, Bool.and_eq_true, decide_eq_true_eq] at h
  simp only [isLowSurrogate, Bool.and_eq_false_iff, decide_eq_false_iff_not]
  omega

theorem readEscape_simple {letter c : Char} (h : simpleEscape? letter = some c)
    (rest : List Char) : readEscape (letter :: rest) = .ok (c, rest) := by
  rw [readEscape.eq_def]
  split
  · rename_i hNil
    cases hNil
  · rename_i hLetter
    obtain ⟨rfl, -⟩ := List.cons.inj hLetter
    cases h
  · rename_i hLetter
    obtain ⟨rfl, rfl⟩ := List.cons.inj hLetter
    rw [h]

/-- A character is written as itself or as an escape that is read as this character. -/
theorem CharText.cases_escape {text : List Char} {c : Char} (h : CharText text c) :
    (∃ escape, text = '\\' :: escape ∧ ∀ rest, readEscape (escape ++ rest) = .ok (c, rest)) ∨
      (text = [c] ∧ c ≠ '"' ∧ c ≠ '\\' ∧ ¬ c < ' ') := by
  cases h with
  | plain not_quote not_backslash visible =>
    exact Or.inr ⟨rfl, not_quote, not_backslash, visible⟩
  | @escape letter _ stands_for =>
    exact Or.inl ⟨[letter], rfl, fun rest => readEscape_simple stands_for rest⟩
  | @unicode a b c d n digits not_low not_high =>
    refine Or.inl ⟨['u', a, b, c, d], rfl, ?_⟩
    intro rest
    simp only [List.cons_append, List.nil_append, readEscape, readUnicodeEscape, readHexQuad,
      digits, not_low, not_high, Bool.false_eq_true, if_false]
  | @pair a b c d a' b' c' d' high low digits is_high digits' is_low =>
    have not_low := isLowSurrogate_of_high is_high
    refine Or.inl ⟨['u', a, b, c, d, '\\', 'u', a', b', c', d'], rfl, ?_⟩
    intro rest
    simp only [List.cons_append, List.nil_append, readEscape, readUnicodeEscape, readHexQuad,
      readLowSurrogate, digits, digits', is_high, is_low, not_low, Bool.false_eq_true, if_false,
      if_true]

theorem CharsText.readStringChars_eq {text chars : List Char} (h : CharsText text chars)
    (rest : List Char) : readStringChars (text ++ '"' :: rest) = .ok (chars, rest) := by
  induction h with
  | nil => rw [List.nil_append, readStringChars]
  | cons hChar _ ih =>
    rw [List.append_assoc]
    rcases hChar.cases_escape with ⟨escape, rfl, hEscape⟩ | ⟨rfl, hQuote, hBackslash, hVisible⟩
    · exact readStringChars_escape (hEscape _) ih
    · exact readStringChars_plain hQuote hBackslash hVisible ih

theorem StringText.readsKey {text : List Char} {value : String} (h : StringText text value) :
    ReadsKey readStringRest text value := by
  intro rest
  have hChars := CharsText.readStringChars_eq h rest
  simp only [readStringRest, hChars, String.ofList_toList]

/-- A character that may stand for itself: no quote, no backslash and no control character. -/
def isPlainChar (c : Char) : Bool := c ≠ '"' && c ≠ '\\' && !(c < ' ')

theorem stringText_plain (value : String) (h : value.toList.all isPlainChar = true) :
    StringText value.toList value := by
  rw [StringText]
  generalize value.toList = chars at h ⊢
  induction chars with
  | nil => exact .nil
  | cons c chars ih =>
    rw [List.all_cons, Bool.and_eq_true] at h
    obtain ⟨⟨hQuote, hBackslash⟩, hVisible⟩ : (c ≠ '"' ∧ c ≠ '\\') ∧ ¬ c < ' ' := by
      simpa [isPlainChar] using h.1
    exact .cons (.plain hQuote hBackslash hVisible) (ih h.2)

/-! ### Numbers -/

def IsDigits (text : List Char) : Prop := text ≠ [] ∧ ∀ c ∈ text, isDigit c = true

/-- Digits before the point, without a leading zero. -/
def IsWhole (text : List Char) : Prop :=
  IsDigits text ∧ (text.head? = some '0' → text = ['0'])

inductive IsFraction : List Char → Prop where
  | none : IsFraction []
  | some {digits : List Char} (h : IsDigits digits) : IsFraction ('.' :: digits)

inductive IsExponent : List Char → Prop where
  | none : IsExponent []
  | some {mark : Char} {sign digits : List Char} (hMark : mark = 'e' ∨ mark = 'E')
    (hSign : sign = [] ∨ sign = ['+'] ∨ sign = ['-']) (h : IsDigits digits) :
    IsExponent (mark :: (sign ++ digits))

/-- A number of any size and precision. -/
inductive IsNumber : List Char → Prop where
  | intro {sign whole fraction exponent : List Char} (hSign : sign = [] ∨ sign = ['-'])
    (hWhole : IsWhole whole) (hFraction : IsFraction fraction) (hExponent : IsExponent exponent) :
    IsNumber (sign ++ (whole ++ (fraction ++ exponent)))

theorem IsDigits.exists_cons {text : List Char} (h : IsDigits text) :
    ∃ c others, text = c :: others ∧ isDigit c = true ∧ ∀ b ∈ others, isDigit b = true := by
  obtain ⟨c, others, rfl⟩ := List.exists_cons_of_ne_nil h.1
  exact ⟨c, others, rfl, h.2 c List.mem_cons_self, fun b hb => h.2 b (List.mem_cons_of_mem c hb)⟩

theorem IsNatural.isWhole {digits : List Char} {n : Nat} (h : IsNatural digits n) :
    IsWhole digits :=
  ⟨⟨h.ne_nil, fun c hc => isDigit_iff.mpr (h.all c hc)⟩, h.leading⟩

theorem IsWhole.isNumber {text : List Char} (h : IsWhole text) {sign : List Char}
    (hSign : sign = [] ∨ sign = ['-']) : IsNumber (sign ++ text) := by
  have hNumber := IsNumber.intro hSign h .none .none
  simpa only [List.append_nil] using hNumber

theorem IsInteger.isNumber {digits : List Char} {z : Int} (h : IsInteger digits z) :
    IsNumber digits := by
  cases h with
  | natural h => exact h.isWhole.isNumber (Or.inl rfl)
  | negative h _ => exact h.isWhole.isNumber (Or.inr rfl)

theorem IsNumber.exists_cons {text : List Char} (h : IsNumber text) :
    ∃ c others, text = c :: others ∧ (c = '-' ∨ isDigit c = true) := by
  cases h with
  | intro hSign hWhole _ _ =>
    obtain ⟨c, others, rfl, hc, -⟩ := hWhole.1.exists_cons
    rcases hSign with rfl | rfl
    · exact ⟨c, _, rfl, Or.inr hc⟩
    · exact ⟨'-', _, rfl, Or.inl rfl⟩

/-! ### Values -/

section Lists
variable {α : Type} (Value : List Char → α → Prop)

/-- One or more items with commas between them and white space around each. -/
inductive ItemsText : List Char → List α → Prop where
  | last {before text after : List Char} {v : α} (space_before : IsSpacing before)
    (h : Value text v) (space_after : IsSpacing after) :
    ItemsText (before ++ (text ++ after)) [v]
  | more {before text after rest : List Char} {v : α} {items : List α}
    (space_before : IsSpacing before) (h : Value text v) (space_after : IsSpacing after)
    (others : ItemsText rest items) :
    ItemsText (before ++ (text ++ (after ++ ',' :: rest))) (v :: items)

/-- What stands between the brackets of a list. -/
inductive ListText : List Char → List α → Prop where
  | nothing {space : List Char} (h : IsSpacing space) : ListText space []
  | items {items : List α} {text : List Char} (h : ItemsText Value text items) :
    ListText text items

end Lists

/-- The text is a value and starts with its first token. -/
inductive Written : List Char → Tree → Prop where
  | null : Written ['n', 'u', 'l', 'l'] .null
  | isTrue : Written ['t', 'r', 'u', 'e'] (.boolean true)
  | isFalse : Written ['f', 'a', 'l', 's', 'e'] (.boolean false)
  | number {digits : List Char} (h : IsNumber digits) : Written digits (.number digits)
  | text {inside : List Char} {value : String} (h : StringText inside value) :
    Written ('"' :: (inside ++ ['"'])) (.text value)
  | list {inside : List Char} {items : List Tree} (h : ListText Written inside items) :
    Written ('[' :: (inside ++ [']'])) (.list items)
  | object {inside : List Char} {members : List (String × Tree)}
    (h : InsideText StringText Written inside members) :
    Written ('\x7b' :: (inside ++ ['\x7d'])) (.object members)

/-- A value does not start like white space or like what closes a list, and only `null` starts as
`null` does. -/
theorem Written.exists_cons {text : List Char} {v : Tree} (h : Written text v) :
    ∃ c others, text = c :: others ∧ isSpace c = false ∧ c ≠ ']' ∧ (v ≠ .null → c ≠ 'n') := by
  cases h with
  | null => exact ⟨'n', _, rfl, rfl, by decide, fun hv => absurd rfl hv⟩
  | isTrue => exact ⟨'t', _, rfl, rfl, by decide, fun _ => by decide⟩
  | isFalse => exact ⟨'f', _, rfl, rfl, by decide, fun _ => by decide⟩
  | number h =>
    obtain ⟨c, others, hText, hc⟩ := h.exists_cons
    refine ⟨c, others, hText, isSpace_of_starts hc, ?_, ?_⟩
    · rintro rfl
      exact absurd hc (by decide)
    · rintro _ rfl
      exact absurd hc (by decide)
  | text h => exact ⟨'"', _, rfl, rfl, by decide, fun _ => by decide⟩
  | list h => exact ⟨'[', _, rfl, rfl, by decide, fun _ => by decide⟩
  | object h => exact ⟨'\x7b', _, rfl, rfl, by decide, fun _ => by decide⟩

/-- The whole text is a value with white space around it. -/
def IsTextOf (text : String) (v : Tree) : Prop :=
  ∃ before inside after, IsSpacing before ∧ Written inside v ∧ IsSpacing after ∧
    text.toList = before ++ (inside ++ after)

end StreamAdmission.Json
