import StreamAdmission.Proofs.Json.Number
import StreamAdmission.Toml.Node

/-!
# TOML entries as they are written

A line with a key, an equals sign and a value. A key is bare or stands between quotes, a value is a
string or a natural number. Between quotes a quote or a backslash has a backslash before it, so that
neither a dot nor a hash nor a bracket means anything there.
-/

namespace StreamAdmission.Toml

/-- Nothing but characters from the space to the tilde. -/
def IsPrintable (value : String) : Prop := ∀ c ∈ value.toList, ' ' ≤ c ∧ c ≤ '~'

-- over the characters of the text, and not over all characters
instance (value : String) : Decidable (IsPrintable value) :=
  List.decidableBAll (fun c => ' ' ≤ c ∧ c ≤ '~') value.toList

def encodeChar (c : Char) : List Char := if c = '"' ∨ c = '\\' then ['\\', c] else [c]

def quoted (value : String) : List Char := '"' :: (value.toList.flatMap encodeChar ++ ['"'])

/-- A line with the text of a key and the text of a value. -/
def entryLine (key value : List Char) : List Char := key ++ ' ' :: '=' :: ' ' :: value

/-- The text goes on with a line end, or is over. -/
def EndsLine (text : List Char) : Prop := text = [] ∨ ∃ rest, text = '\n' :: rest

/-! ### Strings -/

theorem length_quoted_le (value : String) : (quoted value).length ≤ 2 * value.length + 2 := by
  have hEncoded : ∀ chars : List Char, (chars.flatMap encodeChar).length ≤ 2 * chars.length := by
    intro chars
    induction chars with
    | nil => exact Nat.le_refl 0
    | cons c chars ih =>
      have hChar : (encodeChar c).length ≤ 2 := by
        rw [encodeChar]
        split
        · exact Nat.le_refl 2
        · exact Nat.le_succ 1
      rw [List.flatMap_cons, List.length_append, List.length_cons]
      omega
  have hValue := hEncoded value.toList
  rw [String.length_toList] at hValue
  simp only [quoted, List.length_cons, List.length_append, List.length_nil]
  omega

theorem isPlainChar_of_printable {c : Char} (h : ' ' ≤ c ∧ c ≤ '~') : isPlainChar c = true := by
  have hDelete : c ≠ '\x7f' := by
    rintro rfl
    exact absurd h.2 (by decide)
  simp [isPlainChar, h.1, hDelete]

theorem readBasic_plain {c : Char} (hPlain : isPlainChar c = true) (hQuote : c ≠ '"')
    (hBackslash : c ≠ '\\') (rest : List Char) :
    readBasic (c :: rest) = consTo (some c) (readBasic rest) := by
  rw [readBasic.eq_def]
  split <;> simp_all

theorem readBasic_escaped {c : Char} (hc : c = '"' ∨ c = '\\') (rest : List Char) :
    readBasic ('\\' :: c :: rest) = consTo (some c) (readBasic rest) := by
  rcases hc with rfl | rfl <;> rfl

theorem readBasic_encoded {chars : List Char} (h : ∀ c ∈ chars, ' ' ≤ c ∧ c ≤ '~')
    (rest : List Char) :
    readBasic (chars.flatMap encodeChar ++ '"' :: rest) = some (chars, rest) := by
  induction chars with
  | nil => rfl
  | cons c chars ih =>
    obtain ⟨hc, hChars⟩ := List.forall_mem_cons.mp h
    rw [List.flatMap_cons, List.append_assoc, encodeChar]
    split
    · rename_i hSpecial
      rw [List.cons_append, List.singleton_append, readBasic_escaped hSpecial, ih hChars]
      rfl
    · rename_i hOther
      rw [not_or] at hOther
      rw [List.singleton_append, readBasic_plain (isPlainChar_of_printable hc) hOther.1 hOther.2,
        ih hChars]
      rfl

/-- An empty string is not taken for the start of a longer kind of string. -/
theorem readString_quoted {value : String} (h : IsPrintable value) {rest : List Char}
    (hRest : EndsLine rest) : readString (quoted value ++ rest) = some (value, rest) := by
  have hBasic := readBasic_encoded h rest
  rw [quoted, List.cons_append, List.append_assoc, List.singleton_append]
  have hSingle : ∀ others,
      value.toList.flatMap encodeChar ++ '"' :: rest ≠ '"' :: '"' :: others := by
    intro others hOthers
    cases hChars : value.toList with
    | nil =>
      rw [hChars, List.flatMap_nil, List.nil_append] at hOthers
      rcases hRest with rfl | ⟨_, rfl⟩ <;> cases hOthers
    | cons c chars =>
      rw [hChars, List.flatMap_cons, encodeChar] at hOthers
      split at hOthers
      · cases hOthers
      · rename_i hOther
        exact hOther (Or.inl (List.cons.inj hOthers).1)
  rw [readString, hBasic]
  · simp only [Option.map_some, String.ofList_toList]
  · exact hSingle

/-! ### Keys -/

/-- The text of a key that names one thing: a bare one or a string. -/
inductive KeyText : List Char → String → Prop where
  | bare {name : String} (ne_nil : name.toList ≠ []) (h : ∀ c ∈ name.toList, isBareChar c = true) :
    KeyText name.toList name
  | quoted {name : String} (h : IsPrintable name) : KeyText (quoted name) name

theorem skipSpace_append {space : List Char} (h : ∀ c ∈ space, isSpace c = true) {c : Char}
    (hc : isSpace c = false) (rest : List Char) : skipSpace (space ++ c :: rest) = c :: rest := by
  rw [skipSpace, List.dropWhile_append_of_pos h, List.dropWhile_cons_of_neg (by simp [hc])]

theorem skipSpace_cons {c : Char} (hc : isSpace c = false) (rest : List Char) :
    skipSpace (c :: rest) = c :: rest :=
  List.dropWhile_cons_of_neg (by simp [hc])

/-- A key starts with a quote or a bare character; none of these starts a line of another kind. -/
theorem KeyText.exists_cons {text : List Char} {name : String} (h : KeyText text name) :
    ∃ c rest, text = c :: rest ∧ c ∉ [' ', '\t', '\n', '\r', '#', '[', '\ufeff'] := by
  cases h with
  | bare ne_nil h =>
    obtain ⟨c, rest, hName⟩ := List.exists_cons_of_ne_nil ne_nil
    have hOther : [' ', '\t', '\n', '\r', '#', '[', '\ufeff'].all (!isBareChar ·) = true := by
      decide
    refine ⟨c, rest, hName, fun hc => ?_⟩
    have hBare := List.all_eq_true.mp hOther c hc
    rw [h c (hName ▸ List.mem_cons_self)] at hBare
    cases hBare
  | quoted h => exact ⟨'"', _, rfl, by decide⟩

theorem isSpace_eq_false {c : Char} (h : c ∉ [' ', '\t', '\n', '\r', '#', '[', '\ufeff']) :
    isSpace c = false := by
  simp only [List.mem_cons, not_or] at h
  simp [isSpace, h.1, h.2.1]

theorem KeyText.readKeyPart_append {text : List Char} {name : String} (h : KeyText text name)
    {c : Char} (hc : isBareChar c = false) (rest : List Char) :
    readKeyPart (text ++ c :: rest) = some (name, c :: rest) := by
  cases h with
  | bare ne_nil h =>
    have hEnd : ∀ d ∈ (c :: rest).head?, isBareChar d = false := by
      rintro _ ⟨⟩
      exact hc
    have hFirst : ∀ d others, name.toList ++ c :: rest = d :: others → isBareChar d = true := by
      intro d others hText
      obtain ⟨b, chars, hName⟩ := List.exists_cons_of_ne_nil ne_nil
      rw [hName] at hText
      rw [← (List.cons.inj hText).1]
      exact h b (hName ▸ List.mem_cons_self)
    rw [readKeyPart.eq_def]
    split
    · rename_i hQuote
      exact absurd (hFirst _ _ hQuote) (by decide)
    · rename_i hQuote
      exact absurd (hFirst _ _ hQuote) (by decide)
    · rw [Json.takeWhile_append_of_head h hEnd, Json.dropWhile_append_of_head h hEnd]
      split
      · rename_i hNil
        exact absurd hNil ne_nil
      · rw [String.ofList_toList]
  | quoted h =>
    have hBasic := readBasic_encoded h (c :: rest)
    rw [Toml.quoted, List.cons_append, List.append_assoc, List.singleton_append, readKeyPart, hBasic]
    simp only [Option.map_some, String.ofList_toList]

/-- Behind a key with one part stands neither a dot nor more of the key. -/
theorem KeyText.readKey_append {text space : List Char} {name : String} (h : KeyText text name)
    (hSpace : ∀ b ∈ space, isSpace b = true) {c : Char} (hBare : isBareChar c = false)
    (hc : isSpace c = false) (hDot : c ≠ '.') (rest : List Char) :
    readKey (text ++ (space ++ c :: rest)) = some (([], name), c :: rest) := by
  have hPart : readKeyPart (text ++ (space ++ c :: rest)) = some (name, space ++ c :: rest) := by
    cases space with
    | nil => exact h.readKeyPart_append hBare rest
    | cons b space =>
      have hb : isBareChar b = false := by
        have hCases : b = ' ' ∨ b = '\t' := by simpa [isSpace] using hSpace b List.mem_cons_self
        rcases hCases with rfl | rfl <;> decide
      exact h.readKeyPart_append hb (space ++ c :: rest)
  have hStart : skipSpace (text ++ (space ++ c :: rest)) = text ++ (space ++ c :: rest) := by
    obtain ⟨b, others, rfl, hb⟩ := h.exists_cons
    exact skipSpace_cons (isSpace_eq_false hb) _
  have hParts : readKeyParts (keyLimit - 1) (text ++ (space ++ c :: rest)) =
      some ([name], c :: rest) := by
    show readKeyParts (78 + 1) _ = _
    rw [readKeyParts, hStart, hPart]
    simp only [Option.bind_eq_bind, Option.bind_some, skipSpace_append hSpace hc]
    split
    · rename_i hHead
      exact absurd (List.cons.inj hHead).1 hDot
    · rfl
  rw [readKey, hParts]
  rfl

/-! ### Numbers -/

theorem digitsOf?_eq_some {digits : List Char} (ne_nil : digits ≠ [])
    (h : ∀ c ∈ digits, Json.isDigit c = true) : digitsOf? Json.isDigit digits = some digits := by
  induction digits with
  | nil => exact absurd rfl ne_nil
  | cons c digits ih =>
    obtain ⟨hc, hDigits⟩ := List.forall_mem_cons.mp h
    cases digits with
    | nil => rw [digitsOf?, if_pos hc]
    | cons d digits =>
      have hd : d ≠ '_' := by
        rintro rfl
        exact absurd (hDigits '_' List.mem_cons_self) (by decide)
      rw [digitsOf?, if_pos hc, ih (List.cons_ne_nil _ _) hDigits, Option.map_some]
      · exact fun h => absurd h (List.cons_ne_nil _ _)
      · intro rest hText
        exact hd (List.cons.inj hText).1

theorem valueOf_decimal (n : Nat) : valueOf 10 (Text.decimal n) = n := by
  have hDigit : ∀ d : Fin 10, (Json.hexValue? (Text.digitChar d)).getD 0 = d := by decide
  induction n using Text.decimal.induct with
  | case1 n hn =>
    rw [Text.decimal, if_pos hn]
    have hValue := hDigit ⟨n, hn⟩
    simpa [valueOf] using hValue
  | case2 n hn ih =>
    have hValue := hDigit ⟨n % 10, Nat.mod_lt n (by decide)⟩
    rw [Text.decimal, if_neg hn, valueOf, List.foldl_append, ← valueOf, ih]
    simp only [List.foldl_cons, List.foldl_nil, hValue]
    omega

theorem integerOf?_decimal {n : Nat} (h : (n : Int) ≤ Json.maxInteger) :
    integerOf? (Text.decimal n) = some (n : Int) := by
  have hNatural := Json.isNatural_decimal n
  have hDigits : ∀ c ∈ Text.decimal n, Json.isDigit c = true :=
    fun c hc => Json.isDigit_iff.mpr (hNatural.all c hc)
  have hAll : digitsOf? Json.isDigit (Text.decimal n) = some (Text.decimal n) :=
    digitsOf?_eq_some hNatural.ne_nil hDigits
  have hDecimal : decimalDigits? (Text.decimal n) = some (Text.decimal n) := by
    rw [decimalDigits?, hAll]
    simp only [Option.bind_eq_bind, Option.bind_some]
    split
    · rename_i hZero
      have hLeading := hNatural.leading (by rw [hZero]; rfl)
      rw [hZero] at hLeading
      cases hLeading
    · rfl
  have hSign : splitSign (Text.decimal n) = (false, Text.decimal n) := by
    rw [splitSign.eq_def]
    split
    · rename_i hMinus
      exact absurd (hDigits '-' (hMinus ▸ List.mem_cons_self)) (by decide)
    · rename_i hPlus
      exact absurd (hDigits '+' (hPlus ▸ List.mem_cons_self)) (by decide)
    · rfl
  have hBounded : bounded? (n : Int) = some (n : Int) := by
    have hLow : Json.minInteger ≤ (n : Int) := Int.le_trans (by decide) (Int.natCast_nonneg n)
    rw [bounded?, if_pos ⟨hLow, h⟩]
  have hMark : ∀ {mark : Char} {rest : List Char}, Text.decimal n = '0' :: mark :: rest →
      Json.isDigit mark = true := by
    intro mark rest hText
    exact hDigits mark (hText ▸ List.mem_cons_of_mem _ List.mem_cons_self)
  rw [integerOf?.eq_def]
  split
  · rename_i hHex
    exact absurd (hMark hHex) (by decide)
  · rename_i hOctal
    exact absurd (hMark hOctal) (by decide)
  · rename_i hBinary
    exact absurd (hMark hBinary) (by decide)
  · simp only [hSign, hDecimal, Option.bind_eq_bind, Option.bind_some, valueOf_decimal,
      Bool.false_eq_true, if_false, hBounded]

theorem isTokenChar_of_digit {c : Char} (h : '0' ≤ c ∧ c ≤ '9') : isTokenChar c = true := by
  have hOther : [' ', '\t', '\n', '\r', '#', ',', ']', '\x7d'].all (!Json.isDigit ·) = true := by
    decide
  have hc : c ∉ [' ', '\t', '\n', '\r', '#', ',', ']', '\x7d'] := by
    intro hc
    have hDigit := List.all_eq_true.mp hOther c hc
    rw [Json.isDigit_iff.mpr h] at hDigit
    cases hDigit
  simp only [List.mem_cons, List.not_mem_nil, or_false, not_or] at hc
  simp [isTokenChar, isSpace, hc]

theorem isSpace_of_digit {c : Char} (h : Json.isDigit c = true) : isSpace c = false := by
  have hToken := isTokenChar_of_digit (Json.isDigit_iff.mp h)
  simp only [isTokenChar, Bool.not_eq_true', Bool.or_eq_false_iff] at hToken
  simp [hToken]

theorem splitToken_append {token rest : List Char} (h : ∀ c ∈ token, isTokenChar c = true)
    (hRest : EndsLine rest) : splitToken (token ++ rest) = (token, rest) := by
  have hEnd : ∀ c ∈ rest.head?, isTokenChar c = false := by
    rcases hRest with rfl | ⟨others, rfl⟩
    · exact nofun
    · rintro _ ⟨⟩
      rfl
  rw [splitToken, Json.takeWhile_append_of_head h hEnd, Json.dropWhile_append_of_head h hEnd]
  rcases hRest with rfl | ⟨others, rfl⟩ <;> rfl

theorem readScalar_decimal {n : Nat} (h : (n : Int) ≤ Json.maxInteger) {rest : List Char}
    (hRest : EndsLine rest) :
    readScalar (Text.decimal n ++ rest) = some (.integer n, rest) := by
  have hDigit : ∀ c ∈ Text.decimal n, '0' ≤ c ∧ c ≤ '9' := fun _ hc => Text.mem_decimal hc
  have hTrue : Text.decimal n ≠ ['t', 'r', 'u', 'e'] := fun hWord =>
    absurd (hDigit 't' (hWord ▸ List.mem_cons_self)) (by decide)
  have hFalse : Text.decimal n ≠ ['f', 'a', 'l', 's', 'e'] := fun hWord =>
    absurd (hDigit 'f' (hWord ▸ List.mem_cons_self)) (by decide)
  rw [readScalar, splitToken_append (fun c hc => isTokenChar_of_digit (hDigit c hc)) hRest]
  simp only [scalarOf?, if_neg hTrue, if_neg hFalse, integerOf?_decimal h, Option.bind_eq_bind,
    Option.bind_some]
  rfl

/-! ### Entries -/

/-- The text of a value: a string, or a natural number that fits into a signed one of 64 bits. -/
inductive ValueText : List Char → Node → Prop where
  | string {value : String} (h : IsPrintable value) : ValueText (quoted value) (.string value)
  | number {n : Nat} (h : (n : Int) ≤ Json.maxInteger) :
    ValueText (Text.decimal n) (.scalar (.integer n))

theorem ValueText.exists_cons {text : List Char} {node : Node} (h : ValueText text node) :
    ∃ c rest, text = c :: rest ∧ (c = '"' ∨ Json.isDigit c = true) := by
  cases h with
  | string h => exact ⟨'"', _, rfl, Or.inl rfl⟩
  | @number n h =>
    obtain ⟨c, rest, hText, hc⟩ := (Json.isNatural_decimal n).exists_cons
    exact ⟨c, rest, hText, Or.inr hc⟩

theorem ValueText.readFlat_append {text : List Char} {node : Node} (h : ValueText text node)
    {rest : List Char} (hRest : EndsLine rest) :
    readValue.readFlat (text ++ rest) = some (node, rest) := by
  cases h with
  | @string value h =>
    have hRead := readString_quoted h hRest
    rw [quoted, List.cons_append] at hRead ⊢
    rw [readValue.readFlat, hRead]
    rfl
  | @number n h =>
    obtain ⟨c, digits, hText, hc⟩ := (Json.isNatural_decimal n).exists_cons
    have hRead := readScalar_decimal h hRest
    rw [hText, List.cons_append] at hRead ⊢
    rw [readValue.readFlat.eq_def]
    split
    · rename_i hQuote
      rw [(List.cons.inj hQuote).1] at hc
      cases hc
    · rename_i hQuote
      rw [(List.cons.inj hQuote).1] at hc
      cases hc
    · rw [hRead]
      rfl

theorem ValueText.readValue_append {text : List Char} {node : Node} (h : ValueText text node)
    (depth : Nat) {rest : List Char} (hRest : EndsLine rest) :
    readValue depth (text ++ rest) = some (node, rest) := by
  have hFlat := h.readFlat_append hRest
  cases depth with
  | zero => rwa [readValue]
  | succ depth =>
    obtain ⟨c, others, rfl, hc⟩ := h.exists_cons
    rw [List.cons_append] at hFlat ⊢
    rw [readValue, hFlat]
    · intro _ hBracket
      rw [(List.cons.inj hBracket).1] at hc
      exact absurd hc (by decide)
    · intro _ hBrace
      rw [(List.cons.inj hBrace).1] at hc
      exact absurd hc (by decide)

structure ReadsEntry (line : List Char) (entry : Entry) : Prop where
  starts : ∃ c rest, line = c :: rest ∧ c ∉ [' ', '\t', '\n', '\r', '#', '[', '\ufeff']
  reads : ∀ depth rest, EndsLine rest →
    readEntry (readValue depth) (line ++ rest) = some (entry, rest)

theorem readsEntry_entryLine {key value : List Char} {name : String} {node : Node}
    (hKey : KeyText key name) (hValue : ValueText value node) :
    ReadsEntry (entryLine key value) ⟨[], name, node⟩ where
  starts := by
    obtain ⟨c, rest, rfl, hc⟩ := hKey.exists_cons
    exact ⟨c, _, rfl, hc⟩
  reads := by
    intro depth rest hRest
    have hStart : skipSpace (' ' :: (value ++ rest)) = value ++ rest := by
      obtain ⟨c, others, rfl, hc⟩ := hValue.exists_cons
      have hSpace : isSpace c = false := by
        rcases hc with rfl | hc
        · rfl
        · exact isSpace_of_digit hc
      rw [skipSpace, List.dropWhile_cons_of_pos rfl]
      exact skipSpace_cons hSpace (others ++ rest)
    have hRead : readKey (key ++ ([' '] ++ '=' :: ' ' :: (value ++ rest))) =
        some (([], name), '=' :: ' ' :: (value ++ rest)) :=
      hKey.readKey_append (List.forall_mem_singleton.mpr rfl) (by decide) (by decide) (by decide) _
    rw [entryLine, List.append_assoc]
    simp only [List.cons_append, List.nil_append] at hRead ⊢
    rw [readEntry, hRead]
    simp only [Option.bind_eq_bind, Option.bind_some, hStart, hValue.readValue_append depth hRest]
    rfl

end StreamAdmission.Toml
