import StreamAdmission.Proofs.Json.Space
import StreamAdmission.Proofs.Text.Numeral

/-!
# Integers as they are written

An integer is written without a leading zero, a sign is allowed in front of all but zero, and what
follows it does not go on as a number. Exactly these texts are read as integers; all other numbers
are read as floating-point values, which no reader of integers accepts.
-/

namespace StreamAdmission.Json

/-- Digits without a leading zero, of value `n`. -/
structure IsNatural (digits : List Char) (n : Nat) : Prop where
  ne_nil : digits ≠ []
  all : ∀ c ∈ digits, '0' ≤ c ∧ c ≤ '9'
  leading : digits.head? = some '0' → digits = ['0']
  value : Text.digitsValue digits = n

/-- The digits of a natural number, or a minus sign and the digits of one that is not zero. -/
inductive IsInteger : List Char → Int → Prop where
  | natural {digits : List Char} {n : Nat} (h : IsNatural digits n) : IsInteger digits n
  | negative {digits : List Char} {n : Nat} (h : IsNatural digits n) (ne_zero : n ≠ 0) :
    IsInteger ('-' :: digits) (-n)

/-- A number that stands before the text ends there. -/
def EndsNumber (text : List Char) : Prop :=
  ∀ c ∈ text.head?, isDigit c = false ∧ c ≠ '.' ∧ c ≠ 'e' ∧ c ≠ 'E'

theorem endsNumber_cons {c : Char} (hc : isDigit c = false ∧ c ≠ '.' ∧ c ≠ 'e' ∧ c ≠ 'E')
    (rest : List Char) : EndsNumber (c :: rest) := by
  intro b hb
  rwa [← Option.some.inj hb]

/-- The value of a number that is an integer. -/
def Number.integer? : Number → Option Int
  | .natural n => some n
  | .negative n => some (-n)
  | .floating .. => none

theorem isDigit_iff {c : Char} : isDigit c = true ↔ '0' ≤ c ∧ c ≤ '9' := by
  simp [isDigit]

theorem digitValue?_eq_none {c : Char} (h : isDigit c = false) : Text.digitValue? c = none :=
  if_neg fun hc => by rw [isDigit_iff.mpr hc] at h; cases h

/-! ### Numbers with a fraction or an exponent -/

/-- The reader does not come to an integer. -/
def ReadsNoInteger (result : Except Failure (Number × List Char)) : Prop :=
  ∀ number rest, result = .ok (number, rest) → number.integer? = none

theorem makeFloat_noInteger (isNegative : Bool) (significand : Nat) (exponent : Int)
    (text : List Char) : ReadsNoInteger (makeFloat isNegative significand exponent text) := by
  intro number rest h
  rw [makeFloat] at h
  split at h
  · cases h
    rfl
  · cases h

theorem readSignedExponent_noInteger (isNegative : Bool) (significand : Nat) (start : Int)
    (up : Bool) (text : List Char) :
    ReadsNoInteger (readSignedExponent isNegative significand start up text) := by
  intro number rest h
  unfold readSignedExponent at h
  split at h
  · cases h
  split at h
  · cases h
  split at h
  · exact makeFloat_noInteger _ _ _ _ number rest h
  split at h
  · cases h
  · cases h
    rfl

theorem readExponent_noInteger (isNegative : Bool) (significand : Nat) (start : Int)
    (text : List Char) : ReadsNoInteger (readExponent isNegative significand start text) := by
  unfold readExponent
  split <;> exact readSignedExponent_noInteger _ _ _ _ _

theorem readOptionalExponent_noInteger (isNegative : Bool) (significand : Nat) (start : Int)
    (text : List Char) :
    ReadsNoInteger (readOptionalExponent isNegative significand start text) := by
  unfold readOptionalExponent
  split
  · exact readExponent_noInteger _ _ _ _
  · exact readExponent_noInteger _ _ _ _
  · exact makeFloat_noInteger _ _ _ _

theorem readFraction_noInteger (isNegative : Bool) (significand : Nat) (start : Int)
    (text : List Char) : ReadsNoInteger (readFraction isNegative significand start text) := by
  unfold readFraction
  split
  · exact nofun
  split
  · exact readOptionalExponent_noInteger _ _ _ _
  · exact nofun

theorem readLongTail_noInteger (isNegative : Bool) (significand : Nat) (start : Int)
    (text : List Char) : ReadsNoInteger (readLongTail isNegative significand start text) := by
  unfold readLongTail
  split
  · exact readFraction_noInteger _ _ _ _
  · exact readOptionalExponent_noInteger _ _ _ _

/-! ### Integers -/

/-- The integer that a sign and a significand make, unless it is read as a floating-point value. -/
inductive Signed : Bool → Nat → Int → Prop where
  | natural (n : Nat) : Signed false n n
  | negative {n : Nat} (ne_zero : n ≠ 0) (inRange : n ≤ minInteger.natAbs) : Signed true n (-n)

/-- The result is an integer of value `z`, with a text left behind it. -/
def ReadsInteger (result : Except Failure (Number × List Char)) (z : Int) (rest : List Char) :
    Prop :=
  ∃ number, result = .ok (number, rest) ∧ number.integer? = some z

theorem ReadsNoInteger.not_readsInteger {result : Except Failure (Number × List Char)}
    (h : ReadsNoInteger result) {z : Int} {rest : List Char} : ¬ ReadsInteger result z rest := by
  rintro ⟨number, hRead, hInteger⟩
  rw [h number rest hRead] at hInteger
  cases hInteger

theorem readsInteger_makeInteger_iff {isNegative : Bool} {n : Nat} {z : Int}
    {text rest : List Char} :
    ReadsInteger (makeInteger isNegative n text) z rest ↔ rest = text ∧ Signed isNegative n z := by
  cases isNegative with
  | false =>
    constructor
    · rintro ⟨number, hRead, hInteger⟩
      cases hRead
      cases hInteger
      exact ⟨rfl, .natural n⟩
    · rintro ⟨rfl, hSigned⟩
      cases hSigned
      exact ⟨_, rfl, rfl⟩
  | true =>
    by_cases hFloat : n = 0 ∨ minInteger.natAbs < n
    · rw [makeInteger, if_pos rfl, if_pos hFloat]
      refine iff_of_false (makeFloat_noInteger _ _ _ _).not_readsInteger ?_
      rintro ⟨_, hSigned⟩
      cases hSigned
      omega
    · rw [makeInteger, if_pos rfl, if_neg hFloat]
      constructor
      · rintro ⟨number, hRead, hInteger⟩
        cases hRead
        cases hInteger
        exact ⟨rfl, .negative (by omega) (by omega)⟩
      · rintro ⟨rfl, hSigned⟩
        cases hSigned
        exact ⟨_, rfl, rfl⟩

theorem readsInteger_readTail_iff {isNegative : Bool} {n : Nat} {z : Int} {text rest : List Char} :
    ReadsInteger (readTail isNegative n text) z rest ↔
      (∀ c ∈ text.head?, c ≠ '.' ∧ c ≠ 'e' ∧ c ≠ 'E') ∧ rest = text ∧ Signed isNegative n z := by
  unfold readTail
  split
  · refine iff_of_false (readFraction_noInteger _ _ _ _).not_readsInteger ?_
    exact fun h => (h.1 '.' rfl).1 rfl
  · refine iff_of_false (readExponent_noInteger _ _ _ _).not_readsInteger ?_
    exact fun h => (h.1 'e' rfl).2.1 rfl
  · refine iff_of_false (readExponent_noInteger _ _ _ _).not_readsInteger ?_
    exact fun h => (h.1 'E' rfl).2.2 rfl
  · rename_i hPoint hLower hUpper
    rw [readsInteger_makeInteger_iff]
    refine (and_iff_right ?_).symm
    intro c hc
    obtain ⟨tail, rfl⟩ := List.head?_eq_some_iff.mp hc
    exact ⟨fun h => hPoint tail (by rw [h]), fun h => hLower tail (by rw [h]),
      fun h => hUpper tail (by rw [h])⟩

theorem exists_eq_append_readSignificand (start : Nat) (text : List Char) :
    ∃ digits, text = digits ++ (readSignificand start text).2 ∧
      Text.readDigits maxNatural start digits = .ok (readSignificand start text).1 := by
  induction text generalizing start with
  | nil => exact ⟨[], rfl, rfl⟩
  | cons c rest ih =>
    rw [readSignificand]
    cases hc : Text.digitValue? c with
    | none => exact ⟨[], rfl, rfl⟩
    | some d =>
      by_cases hle : start * 10 + d ≤ maxNatural
      · obtain ⟨digits, hText, hRead⟩ := ih (start * 10 + d)
        refine ⟨c :: digits, ?_, ?_⟩
        · simp only [if_pos hle, List.cons_append]
          rw [← hText]
        · simp only [if_pos hle, Text.readDigits, hc]
          exact hRead
      · simp only [if_neg hle]
        exact ⟨[], rfl, rfl⟩

theorem readSignificand_append {start value : Nat} {digits rest : List Char}
    (h : Text.readDigits maxNatural start digits = .ok value)
    (hRest : ∀ c ∈ rest.head?, isDigit c = false) :
    readSignificand start (digits ++ rest) = (value, rest) := by
  induction digits generalizing start with
  | nil =>
    obtain rfl : start = value := by simpa [Text.readDigits] using h
    cases rest with
    | nil => rfl
    | cons c rest =>
      rw [List.nil_append, readSignificand, digitValue?_eq_none (hRest c rfl)]
  | cons c digits ih =>
    rw [Text.readDigits] at h
    rw [List.cons_append, readSignificand]
    cases hc : Text.digitValue? c with
    | none =>
      rw [hc] at h
      cases h
    | some d =>
      by_cases hle : start * 10 + d ≤ maxNatural
      · simp only [hc, if_pos hle] at h ⊢
        exact ih h
      · simp only [hc, if_neg hle] at h
        cases h

theorem isNatural_iff {digits : List Char} {n : Nat} :
    IsNatural digits n ∧ n ≤ maxNatural ↔
      digits ≠ [] ∧ (digits.head? = some '0' → digits = ['0']) ∧
        Text.readDigits maxNatural 0 digits = .ok n := by
  rw [Text.readDigits_zero_eq_ok_iff]
  constructor
  · rintro ⟨⟨hne, hDigits, hLeading, hValue⟩, hle⟩
    exact ⟨hne, hLeading, hDigits, hValue, hle⟩
  · rintro ⟨hne, hLeading, hDigits, hValue, hle⟩
    exact ⟨⟨hne, hDigits, hLeading, hValue⟩, hle⟩

theorem takeWhile_isDigit_eq_nil_iff {text : List Char} :
    text.takeWhile isDigit = [] ↔ ∀ c ∈ text.head?, isDigit c = false := by
  cases text with
  | nil => simp
  | cons c rest => cases hc : isDigit c <;> simp [hc]

theorem readsInteger_readUnsigned_zero_iff {isNegative : Bool} {z : Int} {text rest : List Char} :
    ReadsInteger (readUnsigned isNegative ('0' :: text)) z rest ↔
      EndsNumber text ∧ rest = text ∧ Signed isNegative 0 z := by
  have hHead : (text.head?.map isDigit).getD false = false ↔
      ∀ c ∈ text.head?, isDigit c = false := by
    cases text <;> simp
  rw [readUnsigned]
  split
  · rename_i hDigit
    refine iff_of_false (fun ⟨_, h, _⟩ => nomatch h) ?_
    rintro ⟨hEnds, _⟩
    rw [hHead.mpr fun c hc => (hEnds c hc).1] at hDigit
    cases hDigit
  · rename_i hDigit
    rw [readsInteger_readTail_iff]
    have hNone := hHead.mp (Bool.not_eq_true _ ▸ hDigit)
    constructor
    · rintro ⟨hTail, hRest⟩
      exact ⟨fun c hc => ⟨hNone c hc, hTail c hc⟩, hRest⟩
    · rintro ⟨hEnds, hRest⟩
      exact ⟨fun c hc => (hEnds c hc).2, hRest⟩

theorem readUnsigned_cons {c : Char} (hc : c ≠ '0') (isNegative : Bool) (text : List Char) :
    readUnsigned isNegative (c :: text) =
      match Text.digitValue? c with
      | none => .error (.at .invalidNumber (c :: text))
      | some d =>
        if (readSignificand d text).2.takeWhile isDigit = [] then
          readTail isNegative (readSignificand d text).1 (readSignificand d text).2
        else
          readLongTail isNegative (readSignificand d text).1
            ((readSignificand d text).2.takeWhile isDigit).length
            ((readSignificand d text).2.dropWhile isDigit) := by
  rw [readUnsigned.eq_def]
  split
  · rename_i h
    cases h
  · rename_i h
    exact absurd (List.cons.inj h).1 hc
  · rename_i h
    obtain ⟨rfl, rfl⟩ := List.cons.inj h
    rfl

theorem readDigits_cons {c : Char} {d : Nat} (hd : Text.digitValue? c = some d)
    (digits : List Char) :
    Text.readDigits maxNatural 0 (c :: digits) = Text.readDigits maxNatural d digits := by
  have hle : 0 * 10 + d ≤ maxNatural := by
    have hDigit : '0' ≤ c ∧ c ≤ '9' := by
      refine Decidable.byContradiction fun h => ?_
      rw [Text.digitValue?, if_neg h] at hd
      cases hd
    have hTop : c.toNat ≤ 57 := hDigit.2
    rw [Text.digitValue?, if_pos hDigit] at hd
    have hValue : c.toNat - '0'.toNat = d := Option.some.inj hd
    simp only [maxNatural]
    omega
  simp only [Text.readDigits, hd, if_pos hle]
  rw [Nat.zero_mul, Nat.zero_add]

theorem readDigits_zero : Text.readDigits maxNatural 0 ['0'] = .ok 0 := by decide

theorem readsInteger_readUnsigned_cons_iff {isNegative : Bool} {c : Char} {z : Int}
    {text rest : List Char} (hc : c ≠ '0') :
    ReadsInteger (readUnsigned isNegative (c :: text)) z rest ↔
      ∃ digits n, text = digits ++ rest ∧ Text.readDigits maxNatural 0 (c :: digits) = .ok n ∧
        EndsNumber rest ∧ Signed isNegative n z := by
  rw [readUnsigned_cons hc]
  cases hd : Text.digitValue? c with
  | none =>
    refine iff_of_false (fun ⟨_, h, _⟩ => nomatch h) ?_
    rintro ⟨digits, n, _, hRead, _⟩
    rw [Text.readDigits, hd] at hRead
    cases hRead
  | some d =>
    dsimp only
    constructor
    · intro h
      split at h
      · rename_i hMore
        obtain ⟨hTail, hRest, hSigned⟩ := readsInteger_readTail_iff.mp h
        obtain ⟨digits, hText, hDigits⟩ := exists_eq_append_readSignificand d text
        rw [← hRest] at hText hMore hTail
        refine ⟨digits, _, hText, (readDigits_cons hd digits).trans hDigits, ?_, hSigned⟩
        intro b hb
        exact ⟨takeWhile_isDigit_eq_nil_iff.mp hMore b hb, hTail b hb⟩
      · exact absurd h (readLongTail_noInteger _ _ _ _).not_readsInteger
    · rintro ⟨digits, n, rfl, hRead, hEnds, hSigned⟩
      have hNone : ∀ b ∈ rest.head?, isDigit b = false := fun b hb => (hEnds b hb).1
      rw [readDigits_cons hd] at hRead
      rw [readSignificand_append hRead hNone, if_pos (takeWhile_isDigit_eq_nil_iff.mpr hNone),
        readsInteger_readTail_iff]
      exact ⟨fun b hb => (hEnds b hb).2, rfl, hSigned⟩

theorem readsInteger_readUnsigned_iff {isNegative : Bool} {z : Int} {text rest : List Char} :
    ReadsInteger (readUnsigned isNegative text) z rest ↔
      ∃ digits n, text = digits ++ rest ∧ IsNatural digits n ∧ n ≤ maxNatural ∧
        EndsNumber rest ∧ Signed isNegative n z := by
  constructor
  · intro h
    cases text with
    | nil =>
      obtain ⟨_, hRead, _⟩ := h
      cases hRead
    | cons c text =>
      -- A zero in front stands alone; any other digit starts a significand.
      by_cases hc : c = '0'
      · rw [hc] at h ⊢
        obtain ⟨hEnds, rfl, hSigned⟩ := readsInteger_readUnsigned_zero_iff.mp h
        obtain ⟨hDigits, hle⟩ := isNatural_iff.mpr
          ⟨List.cons_ne_nil '0' [], fun _ => rfl, readDigits_zero⟩
        exact ⟨['0'], 0, rfl, hDigits, hle, hEnds, hSigned⟩
      · obtain ⟨digits, n, rfl, hRead, hEnds, hSigned⟩ :=
          (readsInteger_readUnsigned_cons_iff hc).mp h
        have hLeading : (c :: digits).head? = some '0' → c :: digits = ['0'] :=
          fun hHead => absurd (Option.some.inj hHead) hc
        obtain ⟨hDigits, hle⟩ := isNatural_iff.mpr ⟨List.cons_ne_nil c digits, hLeading, hRead⟩
        exact ⟨c :: digits, n, rfl, hDigits, hle, hEnds, hSigned⟩
  · rintro ⟨digits, n, rfl, hDigits, hle, hEnds, hSigned⟩
    obtain ⟨hne, hLeading, hRead⟩ := isNatural_iff.mp ⟨hDigits, hle⟩
    cases digits with
    | nil => exact absurd rfl hne
    | cons c digits =>
      rw [List.cons_append]
      by_cases hc : c = '0'
      · rw [hc] at hLeading hRead ⊢
        obtain rfl : digits = [] := (List.cons.inj (hLeading rfl)).2
        obtain rfl : 0 = n := Except.ok.inj (readDigits_zero.symm.trans hRead)
        exact readsInteger_readUnsigned_zero_iff.mpr ⟨hEnds, rfl, hSigned⟩
      · exact (readsInteger_readUnsigned_cons_iff hc).mpr
          ⟨digits, n, rfl, hRead, hEnds, hSigned⟩

theorem IsNatural.exists_cons {digits : List Char} {n : Nat} (h : IsNatural digits n) :
    ∃ c others, digits = c :: others ∧ isDigit c = true := by
  obtain ⟨c, others, rfl⟩ := List.exists_cons_of_ne_nil h.ne_nil
  exact ⟨c, others, rfl, isDigit_iff.mpr (h.all c List.mem_cons_self)⟩

theorem isNatural_decimal (n : Nat) : IsNatural (Text.decimal n) n where
  ne_nil := Text.decimal_ne_nil n
  all := fun _ hc => Text.mem_decimal hc
  leading := by
    have hLeading : ∀ n, n ≠ 0 → (Text.decimal n).head? ≠ some '0' := by
      intro n
      induction n using Text.decimal.induct with
      | case1 n hn =>
        have hDigit : ∀ d : Fin 10, d.val ≠ 0 → [Text.digitChar d].head? ≠ some '0' := by decide
        rw [Text.decimal, if_pos hn]
        exact hDigit ⟨n, hn⟩
      | case2 n hn ih =>
        intro _
        rw [Text.decimal, if_neg hn, List.head?_append, Option.or_of_isSome]
        · exact ih (by omega)
        · exact List.isSome_head?.mpr (Text.decimal_ne_nil _)
    intro hHead
    by_cases hn : n = 0
    · rw [hn, Text.decimal]
      rfl
    · exact absurd hHead (hLeading n hn)
  value := ((Text.readDigits_zero_eq_ok_iff).mp (Text.readDigits_decimal (Nat.le_refl n))).2.1

theorem readNumber_of_ne_minus {text : List Char} (h : ∀ c ∈ text.head?, c ≠ '-') :
    readNumber text = readUnsigned false text := by
  rw [readNumber.eq_def]
  split
  · exact absurd rfl (h '-' rfl)
  · rfl

/-- A number is read as an integer exactly if it is written as one that is in range. -/
theorem readsInteger_readNumber_iff {z : Int} {text rest : List Char} :
    ReadsInteger (readNumber text) z rest ↔
      ∃ digits, text = digits ++ rest ∧ IsInteger digits z ∧ minInteger ≤ z ∧ z ≤ maxNatural ∧
        EndsNumber rest := by
  constructor
  · intro h
    by_cases hMinus : ∀ c ∈ text.head?, c ≠ '-'
    · rw [readNumber_of_ne_minus hMinus, readsInteger_readUnsigned_iff] at h
      obtain ⟨digits, n, rfl, hDigits, hle, hEnds, hSigned⟩ := h
      cases hSigned
      have hLow : minInteger ≤ (n : Int) := Int.le_trans (by decide) (Int.natCast_nonneg n)
      exact ⟨digits, rfl, .natural hDigits, hLow, Int.ofNat_le.mpr hle, hEnds⟩
    · simp only [not_forall, not_not] at hMinus
      obtain ⟨c, hHead, rfl⟩ := hMinus
      obtain ⟨tail, rfl⟩ := List.head?_eq_some_iff.mp hHead
      obtain ⟨digits, n, rfl, hDigits, _, hEnds, hSigned⟩ := readsInteger_readUnsigned_iff.mp h
      cases hSigned with
      | negative hne hRange =>
        refine ⟨'-' :: digits, rfl, .negative hDigits hne, ?_, ?_, hEnds⟩ <;>
        · simp only [minInteger, maxNatural] at hRange ⊢
          omega
  · rintro ⟨digits, rfl, hInteger, hLow, hHigh, hEnds⟩
    cases hInteger with
    | @natural _ n hDigits =>
      obtain ⟨c, others, hCons, hc⟩ := hDigits.exists_cons
      rw [readNumber_of_ne_minus, readsInteger_readUnsigned_iff]
      · exact ⟨digits, n, rfl, hDigits, Int.ofNat_le.mp hHigh, hEnds, .natural n⟩
      · rw [hCons]
        rintro b hb rfl
        obtain rfl : c = '-' := Option.some.inj hb
        cases hc
    | @negative others n hDigits hne =>
      have hRange : n ≤ minInteger.natAbs := by
        simp only [minInteger] at hLow ⊢
        omega
      have hle : n ≤ maxNatural := Nat.le_trans hRange (by decide)
      exact readsInteger_readUnsigned_iff.mpr
        ⟨others, n, rfl, hDigits, hle, hEnds, .negative hne hRange⟩

end StreamAdmission.Json
