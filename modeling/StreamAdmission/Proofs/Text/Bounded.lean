import StreamAdmission.Proofs.Text.Numeral

/-!
# Numbers within a bound

The faults of a numeral told by position. A position is wrong if the character there is no digit, or
if the number written up to it exceeds the bound; the first position that is wrong decides what is
complained of. Reading into a word of a fixed width, where every multiplication and every addition
is tested for overflow, comes to the same, so no word wraps around.
-/

namespace StreamAdmission.Text

/-- What is wrong at a position: the character is no digit, however large the number before it, or
it is one and the number up to it exceeds the bound. -/
inductive WrongAt (bound : Nat) (text : List Char) (i : Nat) : NumeralError → Prop where
  | invalidDigit {c : Char} (char : text[i]? = some c) (noDigit : ¬ ('0' ≤ c ∧ c ≤ '9')) :
    WrongAt bound text i .invalidDigit
  | tooLarge {c : Char} (char : text[i]? = some c) (digit : '0' ≤ c ∧ c ≤ '9')
    (beyond : bound < digitsValue (text.take (i + 1))) : WrongAt bound text i .tooLarge

/-- What is wrong at the first position where anything is. -/
def FirstWrong (bound : Nat) (text : List Char) (error : NumeralError) : Prop :=
  ∃ i, WrongAt bound text i error ∧ ∀ j < i, ∀ other, ¬ WrongAt bound text j other

/-- The words in which a text is refused as a number of at most `bound`. -/
inductive Complaint (bound : Nat) (text : List Char) : String → Prop where
  | empty (nothing : text = []) : Complaint bound text "cannot parse integer from empty string"
  | sign (alone : text = ['+'] ∨ text = ['-']) :
    Complaint bound text "invalid digit found in string"
  | invalidDigit (first : FirstWrong bound (dropPlus text) .invalidDigit) :
    Complaint bound text "invalid digit found in string"
  | tooLarge (first : FirstWrong bound (dropPlus text) .tooLarge) :
    Complaint bound text "number too large to fit in target type"

section Position
variable {bound : Nat} {text digits : List Char} {error : NumeralError}

theorem digitsValue_le_append (front back : List Char) :
    digitsValue front ≤ digitsValue (front ++ back) := by
  rw [digitsValue, digitsValue, List.map_append, List.reverse_append, Nat.ofDigits_append]
  refine Nat.le_trans ?_ (Nat.le_add_left _ _)
  exact Nat.le_mul_of_pos_left _ (Nat.pow_pos (by decide))

theorem WrongAt.lt_length {i : Nat} (h : WrongAt bound text i error) : i < text.length := by
  cases h with
  | invalidDigit char => exact (List.getElem?_eq_some_iff.mp char).1
  | tooLarge char => exact (List.getElem?_eq_some_iff.mp char).1

/-- Behind digits, a position is wrong exactly if reading on by one character fails. -/
theorem wrongAt_length_iff {c : Char} {rest : List Char} :
    WrongAt bound (digits ++ c :: rest) digits.length error ↔
      readDigits bound (digitsValue digits) [c] = .error error := by
  have hChar : (digits ++ c :: rest)[digits.length]? = some c := by simp
  have hTake : (digits ++ c :: rest).take (digits.length + 1) = digits ++ [c] := by
    rw [List.take_length_add_append, List.take_succ_cons, List.take_zero]
  have hValue := digitsValue_append_singleton digits c
  rw [readDigits_singleton, ← hValue, ← hTake]
  constructor
  · intro h
    cases h with
    | invalidDigit char noDigit =>
      cases hChar.symm.trans char
      rw [if_neg noDigit]
    | tooLarge char digit beyond =>
      cases hChar.symm.trans char
      rw [if_pos digit, if_neg (Nat.not_le.mpr beyond)]
  · intro h
    split at h
    · rename_i hDigit
      split at h
      · cases h
      · rename_i hBeyond
        cases h
        exact .tooLarge hChar hDigit (Nat.not_le.mp hBeyond)
    · rename_i hOther
      cases h
      exact .invalidDigit hChar hOther

/-- Nothing is wrong within digits whose number is within the bound. -/
theorem not_wrongAt_of_within (areDigits : ∀ c ∈ digits, '0' ≤ c ∧ c ≤ '9')
    (within : digitsValue digits ≤ bound) {i : Nat} (hi : i < digits.length) (rest : List Char) :
    ¬ WrongAt bound (digits ++ rest) i error := by
  intro h
  cases h with
  | invalidDigit char noDigit =>
    rw [List.getElem?_append_left hi] at char
    exact noDigit (areDigits _ (List.mem_of_getElem? char))
  | tooLarge char digit beyond =>
    -- the number only grows from one digit to the next
    have hGrows := digitsValue_le_append (digits.take (i + 1)) (digits.drop (i + 1))
    rw [List.take_append_drop] at hGrows
    rw [List.take_append_of_le_length (Nat.succ_le_of_lt hi)] at beyond
    exact absurd (Nat.le_trans hGrows within) (Nat.not_le.mpr beyond)

theorem within_of_not_wrongAt {i : Nat} (hi : i ≤ text.length)
    (before : ∀ j < i, ∀ other, ¬ WrongAt bound text j other) :
    (∀ c ∈ text.take i, '0' ≤ c ∧ c ≤ '9') ∧ digitsValue (text.take i) ≤ bound := by
  have hDigits : ∀ c ∈ text.take i, '0' ≤ c ∧ c ≤ '9' := by
    intro c hc
    obtain ⟨j, hj, hChar⟩ := List.mem_take_iff_getElem.mp hc
    by_contra hOther
    have hSome : text[j]? = some c := by
      rw [List.getElem?_eq_getElem (by omega), hChar]
    exact before j (by omega) _ (.invalidDigit hSome hOther)
  refine ⟨hDigits, ?_⟩
  cases i with
  | zero => exact Nat.zero_le bound
  | succ i =>
    have hSome : text[i]? = some text[i] := List.getElem?_eq_getElem hi
    have hMem : text[i] ∈ text.take (i + 1) := List.mem_take_iff_getElem.mpr ⟨i, by omega, rfl⟩
    by_contra hBeyond
    exact before i (Nat.lt_succ_self i) _
      (.tooLarge hSome (hDigits _ hMem) (Nat.not_le.mp hBeyond))

/-- Reading digits from the left fails for the first position that is wrong. -/
theorem readDigits_zero_eq_error_iff :
    readDigits bound 0 text = .error error ↔ FirstWrong bound text error := by
  constructor
  · intro h
    obtain ⟨digits, c, rest, value, rfl, hDigits, hc⟩ := readDigits_eq_error_iff.mp h
    obtain ⟨hAll, rfl, hWithin⟩ := readDigits_zero_eq_ok_iff.mp hDigits
    refine ⟨digits.length, wrongAt_length_iff.mpr hc, ?_⟩
    exact fun j hj _ => not_wrongAt_of_within hAll hWithin hj _
  · rintro ⟨i, hWrong, hBefore⟩
    have hi := hWrong.lt_length
    obtain ⟨hAll, hWithin⟩ := within_of_not_wrongAt (Nat.le_of_lt hi) hBefore
    obtain ⟨digits, c, rest, rfl, rfl⟩ : ∃ digits c rest,
        text = digits ++ c :: rest ∧ digits.length = i := by
      have hLength : (text.take i).length = i := List.length_take_of_le (Nat.le_of_lt hi)
      refine ⟨text.take i, text[i], text.drop (i + 1), ?_, hLength⟩
      rw [List.getElem_cons_drop, List.take_append_drop]
    rw [List.take_left] at hAll hWithin
    have hDigits := readDigits_zero_eq_ok_iff.mpr ⟨hAll, rfl, hWithin⟩
    have hLast := wrongAt_length_iff.mp hWrong
    exact readDigits_eq_error_iff.mpr ⟨digits, c, rest, _, rfl, hDigits, hLast⟩

theorem FirstWrong.ne_nil (h : FirstWrong bound text error) : text ≠ [] := by
  obtain ⟨i, hWrong, _⟩ := h
  exact List.ne_nil_of_length_pos (Nat.zero_lt_of_lt hWrong.lt_length)

theorem FirstWrong.readUnsigned_eq (h : FirstWrong bound (dropPlus text) error) :
    readUnsigned bound text = .error error := by
  rw [readUnsigned_of_dropPlus h.ne_nil, readDigits_zero_eq_error_iff]
  exact h

theorem complaint_of_readUnsigned (h : readUnsigned bound text = .error error) :
    Complaint bound text error.message := by
  by_cases hNil : dropPlus text = []
  · rcases dropPlus_eq_nil_iff.mp hNil with rfl | rfl
    · cases h
      exact .empty rfl
    · cases h
      exact .sign (Or.inl rfl)
  · rw [readUnsigned_of_dropPlus hNil, readDigits_zero_eq_error_iff] at h
    cases error with
    | empty =>
      obtain ⟨_, hWrong, _⟩ := h
      cases hWrong
    | invalidDigit => exact .invalidDigit h
    | tooLarge => exact .tooLarge h

/-- A text is refused in the words of what is complained of in it. -/
theorem exists_readUnsigned_eq_error_iff {message : String} :
    (∃ error, readUnsigned bound text = .error error ∧ error.message = message) ↔
      Complaint bound text message := by
  constructor
  · rintro ⟨error, h, rfl⟩
    exact complaint_of_readUnsigned h
  · intro h
    cases h with
    | empty nothing =>
      rw [nothing]
      exact ⟨.empty, rfl, rfl⟩
    | sign alone =>
      refine ⟨.invalidDigit, ?_, rfl⟩
      rcases alone with rfl | rfl <;> rfl
    | invalidDigit first => exact ⟨_, first.readUnsigned_eq, rfl⟩
    | tooLarge first => exact ⟨_, first.readUnsigned_eq, rfl⟩

end Position

theorem digitValue?_le {c : Char} {d : Nat} (h : digitValue? c = some d) : d ≤ 9 := by
  unfold digitValue? at h
  split at h
  · rename_i hc
    cases h
    simp only [Char.le_def, UInt32.le_iff_toNat_le] at hc
    exact Nat.sub_le_sub_right hc.2 _
  · cases h

/-- Ten times a word and a digit, unless the multiplication or the addition leaves the width. -/
def timesTenPlus? {width : Nat} (word : BitVec width) (d : Nat) : Option (BitVec width) :=
  if word.umulOverflow (BitVec.ofNat width 10) then none
  else if (word * BitVec.ofNat width 10).uaddOverflow (BitVec.ofNat width d) then none
  else some (word * BitVec.ofNat width 10 + BitVec.ofNat width d)

def appendDigits {width : Nat} : BitVec width → List Char → Except NumeralError (BitVec width)
  | word, [] => .ok word
  | word, c :: rest =>
    match digitValue? c with
    | none => .error .invalidDigit
    | some d =>
      match timesTenPlus? word d with
      | none => .error .tooLarge
      | some next => appendDigits next rest

/-- Reads an optional plus sign and at least one digit into a word of a fixed width. -/
def readFixed (width : Nat) (text : List Char) : Except NumeralError (BitVec width) :=
  if text = [] then .error .empty
  else if dropPlus text = [] then .error .invalidDigit
  else appendDigits (BitVec.ofNat width 0) (dropPlus text)

section Word
variable {width : Nat} (wide : 10 < 2 ^ width)
include wide

/-- A word holds the next number exactly if neither operation overflows. -/
theorem map_toNat_timesTenPlus? (word : BitVec width) {d : Nat} (hd : d ≤ 9) :
    (timesTenPlus? word d).map BitVec.toNat =
      if word.toNat * 10 + d ≤ 2 ^ width - 1 then some (word.toNat * 10 + d) else none := by
  have hTen : (BitVec.ofNat width 10).toNat = 10 := by
    rw [BitVec.toNat_ofNat, Nat.mod_eq_of_lt wide]
  have hDigit : (BitVec.ofNat width d).toNat = d := by
    rw [BitVec.toNat_ofNat, Nat.mod_eq_of_lt (by omega)]
  simp only [timesTenPlus?, BitVec.umulOverflow, BitVec.uaddOverflow, BitVec.toNat_mul, hTen,
    hDigit, decide_eq_true_eq]
  by_cases hMul : word.toNat * 10 < 2 ^ width
  · rw [if_neg (by omega), Nat.mod_eq_of_lt hMul]
    by_cases hAdd : word.toNat * 10 + d < 2 ^ width
    · rw [if_neg (by omega), if_pos (by omega), Option.map_some, BitVec.toNat_add,
        BitVec.toNat_mul, hTen, hDigit, Nat.mod_eq_of_lt hMul, Nat.mod_eq_of_lt hAdd]
    · rw [if_pos (by omega), if_neg (by omega), Option.map_none]
  · rw [if_pos (by omega), if_neg (by omega), Option.map_none]

/-- A word grows as the number in it does. -/
theorem map_toNat_appendDigits (word : BitVec width) (digits : List Char) :
    (appendDigits word digits).map BitVec.toNat = readDigits (2 ^ width - 1) word.toNat digits := by
  induction digits generalizing word with
  | nil => rfl
  | cons c digits ih =>
    rw [appendDigits, readDigits]
    cases hDigit : digitValue? c with
    | none => rfl
    | some d =>
      have hStep := map_toNat_timesTenPlus? wide word (digitValue?_le hDigit)
      by_cases hWithin : word.toNat * 10 + d ≤ 2 ^ width - 1
      · rw [if_pos hWithin] at hStep
        obtain ⟨next, hNext, hValue⟩ := Option.map_eq_some_iff.mp hStep
        simp only [hNext, if_pos hWithin, ih, hValue]
      · rw [if_neg hWithin, Option.map_eq_none_iff] at hStep
        simp only [hStep, if_neg hWithin]
        rfl

/-- Reading into a word gives the number itself, or the same fault. -/
theorem map_toNat_readFixed (text : List Char) :
    (readFixed width text).map BitVec.toNat = readUnsigned (2 ^ width - 1) text := by
  rw [readFixed]
  by_cases hNil : dropPlus text = []
  · rcases dropPlus_eq_nil_iff.mp hNil with rfl | rfl <;> rfl
  · have hText : text ≠ [] := by
      rintro rfl
      exact hNil rfl
    rw [if_neg hText, if_neg hNil, map_toNat_appendDigits wide, readUnsigned_of_dropPlus hNil]
    rfl

end Word

end StreamAdmission.Text
