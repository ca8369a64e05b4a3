import Mathlib.Data.Nat.Digits.Defs
import StreamAdmission.Text.Numeral

/-!
# Numerals and their values

The texts that are read as a number are an optional plus sign and digits, leading zeros included,
and the number is their value. The decimal spelling of a number within the bound is one of them. Any
other text is refused for the first character that is no digit or exceeds the bound.
-/

namespace StreamAdmission.Text

theorem isDigit_iff {c : Char} : c.isDigit = true ↔ '0' ≤ c ∧ c ≤ '9' := by
  have hDigit : c.isDigit = (decide ('0' ≤ c) && decide (c ≤ '9')) := rfl
  simp only [hDigit, Bool.and_eq_true, decide_eq_true_eq]

theorem isAlphanum_iff {c : Char} :
    c.isAlphanum = true ↔
      (('A' ≤ c ∧ c ≤ 'Z') ∨ ('a' ≤ c ∧ c ≤ 'z')) ∨ ('0' ≤ c ∧ c ≤ '9') := by
  have hAlphanum : c.isAlphanum = ((decide ('A' ≤ c ∧ c ≤ 'Z') ||
    decide ('a' ≤ c) && decide (c ≤ 'z')) || c.isDigit) := rfl
  simp only [hAlphanum, Bool.or_eq_true, Bool.and_eq_true, decide_eq_true_eq, isDigit_iff]

theorem digitValue?_digitChar {d : Nat} (h : d < 10) : digitValue? (digitChar d) = some d := by
  have all : ∀ d : Fin 10, digitValue? (digitChar d) = some d.val := by decide
  exact all ⟨d, h⟩

theorem mem_decimal {n : Nat} {c : Char} (h : c ∈ decimal n) : '0' ≤ c ∧ c ≤ '9' := by
  have digit : ∀ d : Fin 10, '0' ≤ digitChar d ∧ digitChar d ≤ '9' := by decide
  induction n using decimal.induct with
  | case1 n hn =>
    rw [decimal, if_pos hn] at h
    rw [List.mem_singleton.mp h]
    exact digit ⟨n, hn⟩
  | case2 n hn ih =>
    rw [decimal, if_neg hn] at h
    rcases List.mem_append.mp h with h | h
    · exact ih h
    · rw [List.mem_singleton.mp h]
      exact digit ⟨n % 10, Nat.mod_lt n (by decide)⟩

/-- Digits that are taken in one after the other make up the number. -/
theorem foldlM_decimal {f : Nat → Char → Option Nat}
    (hf : ∀ value d, d < 10 → f value (digitChar d) = some (value * 10 + d)) (n : Nat) :
    (decimal n).foldlM f 0 = some n := by
  induction n using decimal.induct with
  | case1 n hn =>
    rw [decimal, if_pos hn]
    simp [List.foldlM_cons, hf 0 n hn]
  | case2 n hn ih =>
    rw [decimal, if_neg hn, List.foldlM_append, ih]
    simp [List.foldlM_cons, hf _ _ (Nat.mod_lt n (by decide))]
    omega

theorem decimal_ne_nil (n : Nat) : decimal n ≠ [] := by
  rw [decimal]
  split
  · exact List.cons_ne_nil _ _
  · exact List.append_ne_nil_of_right_ne_nil _ (List.cons_ne_nil _ _)

theorem readDigits_append {bound start value : Nat} {front : List Char}
    (h : readDigits bound start front = .ok value) (back : List Char) :
    readDigits bound start (front ++ back) = readDigits bound value back := by
  induction front generalizing start with
  | nil =>
    obtain rfl : start = value := by simpa [readDigits] using h
    rfl
  | cons c front ih =>
    rw [readDigits] at h
    rw [List.cons_append, readDigits]
    split at h
    · cases h
    · split at h
      · rename_i hle
        rw [if_pos hle]
        exact ih h
      · cases h

theorem readDigits_decimal {bound n : Nat} (h : n ≤ bound) :
    readDigits bound 0 (decimal n) = .ok n := by
  induction n using decimal.induct with
  | case1 n hn => simp [decimal, hn, readDigits, digitValue?_digitChar hn, h]
  | case2 n hn ih =>
    have hdigit := digitValue?_digitChar (Nat.mod_lt n (by decide : 10 > 0))
    have hvalue : n / 10 * 10 + n % 10 = n := by omega
    rw [decimal, if_neg hn, readDigits_append (ih (by omega))]
    simp [readDigits, hdigit, hvalue, h]

theorem readUnsigned_decimal {bound n : Nat} (h : n ≤ bound) :
    readUnsigned bound (decimal n) = .ok n := by
  have noPlus : '+' ∉ decimal n := by
    intro hPlus
    exact absurd (mem_decimal hPlus) (by decide)
  rw [← readDigits_decimal h]
  unfold readUnsigned
  split
  · rename_i hNil
    exact absurd hNil (decimal_ne_nil n)
  · rename_i hText
    exact absurd (hText ▸ List.mem_cons_self) noPlus
  · rename_i hText
    exact absurd (hText ▸ List.mem_cons_self) noPlus
  · rfl

/-- The number that digits stand for, the most significant first. -/
def digitsValue (digits : List Char) : Nat :=
  Nat.ofDigits 10 (digits.map fun c => c.toNat - '0'.toNat).reverse

/-- An optional plus sign and at least one digit, of value `n`. -/
def IsNumeral (text : List Char) (n : Nat) : Prop :=
  ∃ digits, (text = digits ∨ text = '+' :: digits) ∧ digits ≠ [] ∧
    (∀ c ∈ digits, '0' ≤ c ∧ c ≤ '9') ∧ digitsValue digits = n

theorem digitsValue_cons (c : Char) (digits : List Char) :
    digitsValue (c :: digits) =
      10 ^ digits.length * (c.toNat - '0'.toNat) + digitsValue digits := by
  rw [digitsValue, List.map_cons, Nat.ofDigits_reverse_cons, List.length_map, Nat.add_comm]
  rfl

/-- The digits are appended to the number read so far. The bound is tested at every digit, but the
number only grows, so it is enough that the last one is within it. -/
theorem readDigits_eq_ok_iff {bound value n : Nat} {digits : List Char} (start : value ≤ bound) :
    readDigits bound value digits = .ok n ↔
      (∀ c ∈ digits, '0' ≤ c ∧ c ≤ '9') ∧
        10 ^ digits.length * value + digitsValue digits = n ∧ n ≤ bound := by
  induction digits generalizing value with
  | nil =>
    constructor
    · intro h
      obtain rfl : value = n := by simpa [readDigits] using h
      exact ⟨fun c hc => absurd hc List.not_mem_nil, by simp [digitsValue], start⟩
    · rintro ⟨_, hValue, _⟩
      obtain rfl : value = n := by simpa [digitsValue] using hValue
      rfl
  | cons c digits ih =>
    rw [readDigits, digitValue?]
    by_cases hc : '0' ≤ c ∧ c ≤ '9'
    · have hShift : 10 ^ (c :: digits).length * value + digitsValue (c :: digits) =
          10 ^ digits.length * (value * 10 + (c.toNat - '0'.toNat)) + digitsValue digits := by
        rw [digitsValue_cons, List.length_cons, Nat.pow_succ]
        ring
      rw [if_pos hc, hShift]
      by_cases hle : value * 10 + (c.toNat - '0'.toNat) ≤ bound
      · simp only [if_pos hle, ih hle, List.forall_mem_cons, hc, and_self, true_and]
      · simp only [if_neg hle]
        constructor
        · intro h
          cases h
        · rintro ⟨_, hn, hBound⟩
          have hPow : 1 * (value * 10 + (c.toNat - '0'.toNat)) ≤
              10 ^ digits.length * (value * 10 + (c.toNat - '0'.toNat)) :=
            Nat.mul_le_mul_right _ (Nat.one_le_pow _ _ (by decide))
          omega
    · simp only [if_neg hc]
      constructor
      · intro h
        cases h
      · rintro ⟨hDigits, _⟩
        exact absurd (hDigits c List.mem_cons_self) hc

theorem readDigits_zero_eq_ok_iff {bound n : Nat} {digits : List Char} :
    readDigits bound 0 digits = .ok n ↔
      (∀ c ∈ digits, '0' ≤ c ∧ c ≤ '9') ∧ digitsValue digits = n ∧ n ≤ bound := by
  rw [readDigits_eq_ok_iff (Nat.zero_le bound), Nat.mul_zero, Nat.zero_add]

theorem readUnsigned_eq_ok_iff {bound n : Nat} {text : List Char} :
    readUnsigned bound text = .ok n ↔ IsNumeral text n ∧ n ≤ bound := by
  have hPlus : ¬ ('0' ≤ '+' ∧ '+' ≤ '9') := by decide
  unfold readUnsigned
  split
  · constructor
    · exact nofun
    · rintro ⟨⟨digits, hText | hText, hne, _⟩, _⟩
      · exact absurd hText.symm hne
      · cases hText
  · constructor
    · exact nofun
    · rintro ⟨⟨digits, hText | hText, hne, hDigits, _⟩, _⟩
      · exact absurd (hDigits '+' (hText ▸ List.mem_cons_self)) hPlus
      · exact absurd (List.cons.inj hText).2.symm hne
  · rename_i digits hne
    rw [readDigits_zero_eq_ok_iff]
    constructor
    · rintro ⟨hDigits, hValue, hBound⟩
      exact ⟨⟨digits, Or.inr rfl, hne, hDigits, hValue⟩, hBound⟩
    · rintro ⟨⟨others, hText | hText, _, hDigits, hValue⟩, hBound⟩
      · exact absurd (hDigits '+' (hText ▸ List.mem_cons_self)) hPlus
      · rw [(List.cons.inj hText).2]
        exact ⟨hDigits, hValue, hBound⟩
  · rename_i hNil _ hSign
    rw [readDigits_zero_eq_ok_iff]
    constructor
    · rintro ⟨hDigits, hValue, hBound⟩
      exact ⟨⟨text, Or.inl rfl, hNil, hDigits, hValue⟩, hBound⟩
    · rintro ⟨⟨digits, hText | hText, _, hDigits, hValue⟩, hBound⟩
      · rw [hText]
        exact ⟨hDigits, hValue, hBound⟩
      · exact absurd hText (hSign digits)

theorem digitsValue_append_singleton (digits : List Char) (c : Char) :
    digitsValue (digits ++ [c]) = digitsValue digits * 10 + (c.toNat - '0'.toNat) := by
  have hCons : digitsValue (digits ++ [c]) = c.toNat - '0'.toNat + 10 * digitsValue digits := by
    rw [digitsValue, List.map_append, List.reverse_append]
    exact Nat.ofDigits_cons
  rw [hCons]
  ring

theorem readDigits_singleton (bound value : Nat) (c : Char) :
    readDigits bound value [c] =
      if '0' ≤ c ∧ c ≤ '9' then
        if value * 10 + (c.toNat - '0'.toNat) ≤ bound then
          .ok (value * 10 + (c.toNat - '0'.toNat))
        else .error .tooLarge
      else .error .invalidDigit := by
  rw [readDigits, digitValue?]
  by_cases hc : '0' ≤ c ∧ c ≤ '9'
  · rw [if_pos hc, if_pos hc]
    rfl
  · rw [if_neg hc, if_neg hc]

theorem readDigits_cons_of_error {bound value : Nat} {c : Char} {error : NumeralError}
    (h : readDigits bound value [c] = .error error) (rest : List Char) :
    readDigits bound value (c :: rest) = .error error := by
  rw [readDigits] at h ⊢
  split at h
  · exact h
  split at h
  · cases h
  · rename_i hBeyond
    rw [if_neg hBeyond]
    exact h

theorem readDigits_cons_of_ok {bound value next : Nat} {c : Char}
    (h : readDigits bound value [c] = .ok next) (rest : List Char) :
    readDigits bound value (c :: rest) = readDigits bound next rest :=
  readDigits_append h rest

/-- Reading digits fails at one character, behind digits that could be read. -/
theorem readDigits_eq_error_iff {bound value : Nat} {text : List Char} {error : NumeralError} :
    readDigits bound value text = .error error ↔
      ∃ digits c rest last, text = digits ++ c :: rest ∧
        readDigits bound value digits = .ok last ∧ readDigits bound last [c] = .error error := by
  constructor
  · intro h
    induction text generalizing value with
    | nil => cases h
    | cons d text ih =>
      cases hd : readDigits bound value [d] with
      | error problem =>
        rw [readDigits_cons_of_error hd] at h
        cases h
        exact ⟨[], d, text, value, rfl, rfl, hd⟩
      | ok next =>
        rw [readDigits_cons_of_ok hd] at h
        obtain ⟨digits, c, rest, last, rfl, hDigits, hc⟩ := ih h
        refine ⟨d :: digits, c, rest, last, rfl, ?_, hc⟩
        rw [readDigits_cons_of_ok hd]
        exact hDigits
  · rintro ⟨digits, c, rest, last, rfl, hDigits, hc⟩
    rw [readDigits_append hDigits]
    exact readDigits_cons_of_error hc rest

def dropPlus : List Char → List Char
  | '+' :: rest => rest
  | text => text

/-- Why a text is no numeral of value at most `bound`: nothing is written, or a plus sign alone, or
behind digits within the bound stands another character or the digit that exceeds it. -/
inductive NoNumeral (bound : Nat) (text : List Char) : NumeralError → Prop where
  | empty (nothing : text = []) : NoNumeral bound text .empty
  | plus (alone : text = ['+']) : NoNumeral bound text .invalidDigit
  | invalidDigit {digits rest : List Char} {c : Char} (parts : dropPlus text = digits ++ c :: rest)
    (areDigits : ∀ d ∈ digits, '0' ≤ d ∧ d ≤ '9') (within : digitsValue digits ≤ bound)
    (noDigit : ¬ ('0' ≤ c ∧ c ≤ '9')) : NoNumeral bound text .invalidDigit
  | tooLarge {digits rest : List Char} {c : Char} (parts : dropPlus text = digits ++ c :: rest)
    (areDigits : ∀ d ∈ digits, '0' ≤ d ∧ d ≤ '9') (within : digitsValue digits ≤ bound)
    (digit : '0' ≤ c ∧ c ≤ '9') (beyond : bound < digitsValue (digits ++ [c])) :
    NoNumeral bound text .tooLarge

theorem dropPlus_eq_nil_iff {text : List Char} : dropPlus text = [] ↔ text = [] ∨ text = ['+'] := by
  unfold dropPlus
  split
  · simp
  · rename_i hSign
    constructor
    · exact Or.inl
    · rintro (rfl | rfl)
      · rfl
      · exact absurd rfl (hSign [])

theorem readUnsigned_of_dropPlus {bound : Nat} {text : List Char} (h : dropPlus text ≠ []) :
    readUnsigned bound text = readDigits bound 0 (dropPlus text) := by
  unfold readUnsigned dropPlus
  split
  · exact absurd rfl h
  · exact absurd rfl h
  · rfl
  · rename_i hSign
    split
    · exact absurd rfl (hSign _)
    · rfl

theorem NoNumeral.of_readDigits {bound : Nat} {text : List Char} {error : NumeralError}
    (h : readDigits bound 0 (dropPlus text) = .error error) : NoNumeral bound text error := by
  obtain ⟨digits, c, rest, last, hParts, hDigits, hc⟩ := readDigits_eq_error_iff.mp h
  obtain ⟨hAll, rfl, hWithin⟩ := readDigits_zero_eq_ok_iff.mp hDigits
  rw [readDigits_singleton] at hc
  split at hc
  · rename_i hDigit
    split at hc
    · cases hc
    · rename_i hBeyond
      cases hc
      apply NoNumeral.tooLarge hParts hAll hWithin hDigit
      rw [digitsValue_append_singleton]
      omega
  · rename_i hOther
    cases hc
    exact .invalidDigit hParts hAll hWithin hOther

theorem readUnsigned_of_stop {bound : Nat} {text digits rest : List Char} {c : Char}
    {error : NumeralError} (parts : dropPlus text = digits ++ c :: rest)
    (areDigits : ∀ d ∈ digits, '0' ≤ d ∧ d ≤ '9') (within : digitsValue digits ≤ bound)
    (stop : readDigits bound (digitsValue digits) [c] = .error error) :
    readUnsigned bound text = .error error := by
  have hNil : dropPlus text ≠ [] := by
    rw [parts]
    exact List.append_ne_nil_of_right_ne_nil _ (List.cons_ne_nil _ _)
  rw [readUnsigned_of_dropPlus hNil, readDigits_eq_error_iff]
  have hDigits := readDigits_zero_eq_ok_iff.mpr ⟨areDigits, rfl, within⟩
  exact ⟨digits, c, rest, digitsValue digits, parts, hDigits, stop⟩

/-- The texts that are refused are those that are no numeral, each with the fault it has. -/
theorem readUnsigned_eq_error_iff {bound : Nat} {text : List Char} {error : NumeralError} :
    readUnsigned bound text = .error error ↔ NoNumeral bound text error := by
  constructor
  · intro h
    by_cases hNil : dropPlus text = []
    · rcases dropPlus_eq_nil_iff.mp hNil with rfl | rfl
      · cases h
        exact .empty rfl
      · cases h
        exact .plus rfl
    · rw [readUnsigned_of_dropPlus hNil] at h
      exact .of_readDigits h
  · intro h
    cases h with
    | empty nothing => rw [nothing, readUnsigned]
    | plus alone => rw [alone, readUnsigned]
    | invalidDigit parts areDigits within noDigit =>
      apply readUnsigned_of_stop parts areDigits within
      rw [readDigits_singleton, if_neg noDigit]
    | tooLarge parts areDigits within digit beyond =>
      apply readUnsigned_of_stop parts areDigits within
      rw [digitsValue_append_singleton] at beyond
      rw [readDigits_singleton, if_pos digit, if_neg (by omega)]

/-- There is a fault exactly in what is no numeral within the bound. -/
theorem exists_noNumeral_iff {bound : Nat} {text : List Char} :
    (∃ error, NoNumeral bound text error) ↔ ¬ ∃ n, IsNumeral text n ∧ n ≤ bound := by
  simp only [← readUnsigned_eq_error_iff, ← readUnsigned_eq_ok_iff]
  cases readUnsigned bound text with
  | error error => exact iff_of_true ⟨error, rfl⟩ nofun
  | ok n => exact iff_of_false nofun fun h => h ⟨n, rfl⟩

end StreamAdmission.Text
