import StreamAdmission.Proofs.Json.Tree

/-!
# What is passed over

Passing over a value takes exactly its text, however deep it is nested. Where a reader accepts a
value, it takes the same text that would be passed over.
-/

namespace StreamAdmission.Json

/-! ### Values without brackets -/

theorem skipExponentDigits_append {digits rest : List Char} (h : IsDigits digits)
    (hRest : EndsNumber rest) : skipExponentDigits (digits ++ rest) = .ok rest := by
  obtain ⟨c, others, rfl, hc, hOthers⟩ := h.exists_cons
  rw [List.cons_append, skipExponentDigits, if_pos hc,
    dropWhile_append_of_head hOthers fun c hc => (hRest c hc).1]

theorem skipExponent_append {sign digits rest : List Char}
    (hSign : sign = [] ∨ sign = ['+'] ∨ sign = ['-']) (h : IsDigits digits)
    (hRest : EndsNumber rest) : skipExponent (sign ++ (digits ++ rest)) = .ok rest := by
  have hDigits := skipExponentDigits_append h hRest
  rcases hSign with rfl | rfl | rfl
  · obtain ⟨c, others, rfl, hc, -⟩ := h.exists_cons
    rw [List.nil_append, skipExponent.eq_def]
    split
    · rename_i hPlus
      rw [(List.cons.inj hPlus).1] at hc
      cases hc
    · rename_i hMinus
      rw [(List.cons.inj hMinus).1] at hc
      cases hc
    · exact hDigits
  · exact hDigits
  · exact hDigits

theorem skipOptionalExponent_append {exponent rest : List Char} (h : IsExponent exponent)
    (hRest : EndsNumber rest) : skipOptionalExponent (exponent ++ rest) = .ok rest := by
  cases h with
  | none =>
    rw [List.nil_append, skipOptionalExponent.eq_def]
    split
    · exact absurd rfl (hRest 'e' rfl).2.2.1
    · exact absurd rfl (hRest 'E' rfl).2.2.2
    · rfl
  | @some mark sign digits hMark hSign hDigits =>
    rw [List.cons_append, List.append_assoc]
    rcases hMark with rfl | rfl
    · exact skipExponent_append hSign hDigits hRest
    · exact skipExponent_append hSign hDigits hRest

/-- Behind the digits of a number comes no digit, and no point unless a fraction does. -/
theorem IsExponent.head {exponent rest : List Char} (h : IsExponent exponent)
    (hRest : EndsNumber rest) : ∀ c ∈ (exponent ++ rest).head?, isDigit c = false ∧ c ≠ '.' := by
  intro c hc
  cases h with
  | none => exact ⟨(hRest c hc).1, (hRest c hc).2.1⟩
  | some hMark _ _ =>
    obtain rfl := Option.some.inj hc
    rcases hMark with rfl | rfl <;> decide

theorem skipNumberTail_append {fraction exponent rest : List Char} (hFraction : IsFraction fraction)
    (hExponent : IsExponent exponent) (hRest : EndsNumber rest) :
    skipNumberTail (fraction ++ (exponent ++ rest)) = .ok rest := by
  have hTail := skipOptionalExponent_append hExponent hRest
  have hHead := hExponent.head hRest
  cases hFraction with
  | none =>
    rw [List.nil_append, skipNumberTail.eq_def]
    split
    · rename_i hPoint
      exact absurd rfl (hHead '.' (by rw [hPoint]; rfl)).2
    · rename_i hPoint
      exact absurd rfl (hHead '.' (by rw [hPoint]; rfl)).2
    · exact hTail
  | some hDigits =>
    obtain ⟨c, others, rfl, hc, hOthers⟩ := hDigits.exists_cons
    rw [List.cons_append, List.cons_append, skipNumberTail, if_pos hc,
      dropWhile_append_of_head hOthers fun c hc => (hHead c hc).1, hTail]

theorem skipNumber_append {whole fraction exponent rest : List Char} (hWhole : IsWhole whole)
    (hFraction : IsFraction fraction) (hExponent : IsExponent exponent) (hRest : EndsNumber rest) :
    skipNumber (whole ++ (fraction ++ (exponent ++ rest))) = .ok rest := by
  have hTail := skipNumberTail_append hFraction hExponent hRest
  have hHead : ∀ c ∈ (fraction ++ (exponent ++ rest)).head?, isDigit c = false := by
    intro c hc
    cases hFraction with
    | none => exact (hExponent.head hRest c hc).1
    | some _ =>
      obtain rfl := Option.some.inj hc
      rfl
  obtain ⟨c, others, rfl, hc, hOthers⟩ := hWhole.1.exists_cons
  by_cases hZero : c = '0'
  · obtain rfl := hZero
    obtain rfl : others = [] := (List.cons.inj (hWhole.2 rfl)).2
    rw [List.cons_append, List.nil_append, skipNumber, if_neg, hTail]
    cases hText : (fraction ++ (exponent ++ rest)).head? with
    | none => simp
    | some c => simp [hHead c hText]
  · rw [List.cons_append, skipNumber, if_pos hc, dropWhile_append_of_head hOthers hHead, hTail]
    exact hZero

theorem skipScalar_number {c : Char} (hc : c = '-' ∨ isDigit c = true) (rest : List Char) :
    skipScalar (c :: rest) = if c = '-' then skipNumber rest else skipNumber (c :: rest) := by
  rcases hc with rfl | hc
  · rfl
  · have hOther : ∀ d, isDigit d = false → c ≠ d := by
      rintro d hd rfl
      rw [hc] at hd
      cases hd
    rw [if_neg (hOther '-' rfl), skipScalar, if_pos hc] <;> exact hOther _ rfl

theorem IsNumber.skipScalar_append {digits rest : List Char} (h : IsNumber digits)
    (hRest : EndsNumber rest) : skipScalar (digits ++ rest) = .ok rest := by
  cases h with
  | intro hSign hWhole hFraction hExponent =>
    have hSkip := skipNumber_append hWhole hFraction hExponent hRest
    simp only [List.append_assoc]
    rcases hSign with rfl | rfl
    · obtain ⟨c, others, rfl, hc, -⟩ := hWhole.1.exists_cons
      have hPlain : c ≠ '-' := by
        rintro rfl
        cases hc
      rw [List.cons_append] at hSkip
      rw [List.nil_append, List.cons_append, skipScalar_number (Or.inr hc), if_neg hPlain, hSkip]
    · exact hSkip

theorem skipString_simple {letter c : Char} (h : simpleEscape? letter = some c)
    (rest : List Char) : skipString ('\\' :: letter :: rest) = skipString rest := by
  have hLetter : letter ≠ 'u' := by
    rintro rfl
    cases h
  rw [skipString, if_neg hLetter, h]
  · rfl
  · intro a b c d others hText
    exact absurd hText hLetter

theorem skipString_unicode {a b c d : Char} {n : Nat} (h : hexQuad? a b c d = some n)
    (rest : List Char) : skipString ('\\' :: 'u' :: a :: b :: c :: d :: rest) = skipString rest := by
  rw [skipString, h]
  rfl

theorem readHexQuad_eq_ok {text rest : List Char} {n : Nat} (h : readHexQuad text = .ok (n, rest)) :
    ∃ a b c d, text = a :: b :: c :: d :: rest ∧ hexQuad? a b c d = some n := by
  unfold readHexQuad at h
  split at h
  · split at h
    · rename_i hQuad
      cases h
      exact ⟨_, _, _, _, rfl, hQuad⟩
    · cases h
  · cases h

/-- An escape that is read is passed over: a simple one, one of a character, or the two of a pair. -/
theorem skipString_of_readEscape {text rest : List Char} {c : Char}
    (h : readEscape text = .ok (c, rest)) : skipString ('\\' :: text) = skipString rest := by
  unfold readEscape at h
  split at h
  · cases h
  · unfold readUnicodeEscape at h
    split at h
    · cases h
    rename_i hQuad
    obtain ⟨a, b, c, d, rfl, hDigits⟩ := readHexQuad_eq_ok hQuad
    rw [skipString_unicode hDigits]
    split at h
    · cases h
    split at h
    · unfold readLowSurrogate at h
      split at h
      · split at h
        · cases h
        rename_i hQuad'
        obtain ⟨a', b', c', d', rfl, hDigits'⟩ := readHexQuad_eq_ok hQuad'
        split at h
        · obtain ⟨-, rfl⟩ := Prod.mk.inj (Except.ok.inj h)
          exact skipString_unicode hDigits' _
        · cases h
      all_goals cases h
    · cases h
      rfl
  · split at h
    · rename_i hSimple
      cases h
      exact skipString_simple hSimple rest
    · cases h

theorem skipString_plain {c : Char} (hQuote : c ≠ '"') (hBackslash : c ≠ '\\') (hVisible : ¬ c < ' ')
    (rest : List Char) : skipString (c :: rest) = skipString rest := by
  rw [skipString.eq_def]
  split <;> simp_all

theorem skipString_of_readStringChars {text rest chars : List Char}
    (h : readStringChars text = .ok (chars, rest)) : skipString text = .ok rest := by
  fun_induction readStringChars text generalizing chars rest with
  | case1 => cases h
  | case2 => cases h; rfl
  | case3 => cases h
  | case4 => cases h
  | case5 text c behind hEscape _ chars behind' hRest ih =>
    cases h
    rw [skipString_of_readEscape hEscape, ih hRest]
  | case6 => cases h
  | case7 => cases h
  | case8 c text hQuote hBackslash hVisible chars behind hRest ih =>
    cases h
    rw [skipString_plain hQuote hBackslash hVisible, ih hRest]

/-! ### Steps -/

/-- Passes over what is left inside the innermost of some brackets. Before its first item stands what
opens the bracket; before the others stands a value. -/
def skipItems (bracket : Bracket) (first : Bool) (outer : List Bracket) (text : List Char) :
    Except Failure (List Char) :=
  if first then
    match skipSpace text with
    | [] => .error (.at bracket.ends [])
    | c :: rest =>
      if c = bracket.closing then skipRestOf outer rest
      else
        match skipItemKey bracket (c :: rest) with
        | .error failure => .error failure
        | .ok behind => skipValueIn (bracket :: outer) behind
  else skipRestOf (bracket :: outer) text

theorem skipValueIn_eq (outer : List Bracket) (text : List Char) :
    skipValueIn outer text =
      match skipSpace text with
      | [] => .error (.at .valueEnds [])
      | c :: rest =>
        match Bracket.ofOpening? c with
        | none =>
          match skipScalar (c :: rest) with
          | .error failure => .error failure
          | .ok behind => skipRestOf outer behind
        | some bracket => skipItems bracket true outer rest := by
  rw [skipValueIn]
  split
  · rename_i hText
    simp only [hText]
  · rename_i c others hText
    simp only [hText]
    cases hOpening : Bracket.ofOpening? c with
    | none =>
      simp only
      split <;> rename_i hScalar <;> simp only [hScalar]
    | some bracket =>
      simp only [skipItems, if_true]
      split <;> rename_i hRest <;> simp only [hRest]
      split
      · rfl
      · split <;> rename_i hKey <;> simp only [hKey]

theorem skipRestOf_nil (text : List Char) : skipRestOf [] text = .ok text := by
  rw [skipRestOf]

theorem skipRestOf_cons (bracket : Bracket) (outer : List Bracket) (text : List Char) :
    skipRestOf (bracket :: outer) text =
      match skipSpace text with
      | [] => .error (.at bracket.ends [])
      | c :: rest =>
        if c = bracket.closing then skipRestOf outer rest
        else if c = ',' then
          match skipItemKey bracket rest with
          | .error failure => .error failure
          | .ok behind => skipValueIn (bracket :: outer) behind
        else .error (.at bracket.expectedSeparator (c :: rest)) := by
  rw [skipRestOf]
  split <;> rename_i hText <;> simp only [hText]
  split
  · rfl
  · split
    · split <;> rename_i hKey <;> simp only [hKey]
    · rfl

theorem skipValueIn_append {space : List Char} (h : IsSpacing space) (outer : List Bracket)
    (text : List Char) : skipValueIn outer (space ++ text) = skipValueIn outer text := by
  rw [skipValueIn_eq, skipValueIn_eq, skipSpace_append h]

theorem skipValueIn_scalar {text rest : List Char} {c : Char} {others : List Char}
    (hText : skipSpace text = c :: others) (hc : Bracket.ofOpening? c = none)
    (h : skipScalar (c :: others) = .ok rest) (outer : List Bracket) :
    skipValueIn outer text = skipRestOf outer rest := by
  simp only [skipValueIn_eq, hText, hc, h]

theorem skipValueIn_opening {text rest : List Char} {c : Char} {bracket : Bracket}
    (hText : skipSpace text = c :: rest) (hc : Bracket.ofOpening? c = some bracket)
    (outer : List Bracket) : skipValueIn outer text = skipItems bracket true outer rest := by
  simp only [skipValueIn_eq, hText, hc]

theorem skipItems_closed {bracket : Bracket} {text rest : List Char}
    (h : skipSpace text = bracket.closing :: rest) (first : Bool) (outer : List Bracket) :
    skipItems bracket first outer text = skipRestOf outer rest := by
  cases first with
  | true => simp only [skipItems, h, if_true]
  | false => simp only [skipItems, skipRestOf_cons, h, Bool.false_eq_true, if_false, if_true]

theorem skipItems_front {bracket : Bracket} {first : Bool} {front space others : List Char} {c : Char}
    (hFront : IsFront first front) (hSpace : IsSpacing space) (hc : isSpace c = false)
    (hOpen : c ≠ bracket.closing) (outer : List Bracket) :
    skipItems bracket first outer (front ++ (space ++ c :: others)) =
      match skipItemKey bracket (c :: others) with
      | .error failure => .error failure
      | .ok behind => skipValueIn (bracket :: outer) behind := by
  have hText : skipSpace (space ++ c :: others) = c :: others := skipSpace_append_cons hSpace hc _
  cases first with
  | true =>
    rw [show front = [] from hFront, List.nil_append]
    simp only [skipItems, hText, if_true, if_neg hOpen]
  | false =>
    obtain ⟨before, hBefore, rfl⟩ := hFront
    have hComma : skipSpace (before ++ [','] ++ (space ++ c :: others)) =
        ',' :: (space ++ c :: others) :=
      skipSpace_eq_cons_iff.mpr ⟨rfl, before, hBefore, by simp⟩
    have hOther : ',' ≠ bracket.closing := by cases bracket <;> decide
    simp only [skipItems, skipRestOf_cons, hComma, if_neg hOther, Bool.false_eq_true, if_false,
      if_true]
    cases bracket with
    | list => simp only [skipItemKey, skipValueIn_append hSpace]
    | object => simp only [skipItemKey, skipKey, hText, skipSpace_cons_of_not hc]

theorem skipItems_value {first : Bool} {front space others : List Char} {c : Char}
    (hFront : IsFront first front) (hSpace : IsSpacing space) (hc : isSpace c = false)
    (hOpen : c ≠ ']') (outer : List Bracket) :
    skipItems .list first outer (front ++ (space ++ c :: others)) =
      skipValueIn (.list :: outer) (c :: others) :=
  skipItems_front hFront hSpace hc (show c ≠ Bracket.list.closing from hOpen) outer

theorem skipItems_end {first : Bool} {text rest : List Char}
    (h : nextKey first text = .ok (.closed rest)) (outer : List Bracket) :
    skipItems .object first outer text = skipRestOf outer rest := by
  rcases nextKey_cases h with ⟨space, _, hSpace, rfl, hAhead⟩ | ⟨_, _, _, _, _, _, hAhead⟩
  · cases hAhead
    exact skipItems_closed (skipSpace_append_cons hSpace rfl rest) first outer
  · cases hAhead

/-- A member of an object, its key being one that is read. -/
theorem skipItems_member {first : Bool} {text behind inside rest : List Char} {name : String}
    (hNext : nextKey first text = .ok (.item behind))
    (hKey : readStringRest behind = .ok (name, inside)) (hColon : readColon inside = .ok rest)
    (outer : List Bracket) :
    skipItems .object first outer text = skipValueIn (.object :: outer) rest := by
  rcases nextKey_cases hNext with
    ⟨_, _, _, _, hAhead⟩ | ⟨front, space, _, hFront, hSpace, rfl, hAhead⟩
  · cases hAhead
  cases hAhead
  obtain ⟨between, hBetween, rfl⟩ := readColon_eq_ok_iff.mp hColon
  have hString : skipString behind = .ok (between ++ ':' :: rest) := by
    unfold readStringRest at hKey
    split at hKey
    · cases hKey
    · rename_i hChars
      cases hKey
      exact skipString_of_readStringChars hChars
  rw [skipItems_front hFront hSpace rfl (by decide)]
  simp only [skipItemKey, skipKey, skipSpace_cons_of_not (show isSpace '"' = false from rfl), hString,
    skipSpace_append_cons hBetween (show isSpace ':' = false from rfl)]

/-! ### What is open further out -/

/-- What is open further out is passed over last. -/
def PassesOuterLast (skip : List Bracket → List Char → Except Failure (List Char))
    (inner : List Bracket) (text : List Char) : Prop :=
  ∀ outer, skip (inner ++ outer) text = (skip inner text).bind (skipRestOf outer)

theorem skipValueIn_outer : ∀ (inner : List Bracket) (text : List Char),
    PassesOuterLast skipValueIn inner text := by
  apply skipValueIn.induct (PassesOuterLast skipValueIn) (PassesOuterLast skipRestOf)
  case case1 =>
    intro inner text hText outer
    simp only [skipValueIn_eq, hText, Except.bind]
  case case2 =>
    intro inner text c others hText hOpening failure hScalar outer
    simp only [skipValueIn_eq, hText, hOpening, hScalar, Except.bind]
  case case3 =>
    intro inner text c others hText hOpening behind hScalar _ ih outer
    simp only [skipValueIn_scalar hText hOpening hScalar, ih outer]
  case case4 =>
    intro inner text c others hText bracket hOpening hRest outer
    simp only [skipValueIn_opening hText hOpening, skipItems, hRest, if_true, Except.bind]
  case case5 =>
    intro inner text c others hText bracket hOpening behind hRest _ ih outer
    simp only [skipValueIn_opening hText hOpening, skipItems_closed hRest, ih outer]
  case case6 =>
    intro inner text c others hText bracket hOpening d behind hRest _ hOpen failure hKey outer
    simp only [skipValueIn_opening hText hOpening, skipItems, hRest, if_true, if_neg hOpen, hKey,
      Except.bind]
  case case7 =>
    intro inner text c others hText bracket hOpening d behind hRest _ hOpen item hKey _ ih outer
    have hItem := ih outer
    simp only [skipValueIn_opening hText hOpening, skipItems, hRest, if_true, if_neg hOpen, hKey]
    exact hItem
  case case8 =>
    intro text outer
    rw [skipRestOf_nil]
    rfl
  case case9 =>
    intro text bracket inner hText outer
    simp only [List.cons_append, skipRestOf_cons, hText, Except.bind]
  case case10 =>
    intro text bracket inner behind hText _ ih outer
    simp only [List.cons_append, skipRestOf_cons, hText, if_true, ih outer]
  case case11 =>
    intro text bracket inner behind failure hKey hText _ hOpen outer
    simp only [List.cons_append, skipRestOf_cons, hText, if_neg hOpen, if_true, hKey, Except.bind]
  case case12 =>
    intro text bracket inner behind item hKey hText _ hOpen _ ih outer
    have hItem := ih outer
    simp only [List.cons_append, skipRestOf_cons, hText, if_neg hOpen, if_true, hKey]
    exact hItem
  case case13 =>
    intro text bracket inner c behind hText _ hOpen hComma outer
    simp only [List.cons_append, skipRestOf_cons, hText, if_neg hOpen, if_neg hComma, Except.bind]

theorem skipValueIn_of_skipValue {text rest : List Char} (h : skipValue text = .ok rest)
    (outer : List Bracket) : skipValueIn outer text = skipRestOf outer rest := by
  have hOuter := skipValueIn_outer [] text outer
  rw [List.nil_append, ← skipValue, h] at hOuter
  exact hOuter

/-! ### Written values -/

theorem StringText.skipString_append {text : List Char} {value : String} (h : StringText text value)
    (rest : List Char) : skipString (text ++ '"' :: rest) = .ok rest :=
  skipString_of_readStringChars (CharsText.readStringChars_eq h rest)

theorem skipItems_closing {bracket : Bracket} {space : List Char} (h : IsSpacing space)
    (first : Bool) (outer : List Bracket) (rest : List Char) :
    skipItems bracket first outer (space ++ bracket.closing :: rest) = skipRestOf outer rest :=
  skipItems_closed (skipSpace_append_cons h (by cases bracket <;> rfl) rest) first outer

/-- The text is passed over as one value, whatever is open around it. -/
def IsPassed (text : List Char) : Prop :=
  ∀ (outer : List Bracket) (space rest : List Char), IsSpacing space → EndsNumber rest →
    skipValueIn outer (space ++ (text ++ rest)) = skipRestOf outer rest

theorem isPassed_scalar {text others : List Char} {c : Char} (hText : text = c :: others)
    (hSpace : isSpace c = false) (hc : Bracket.ofOpening? c = none)
    (h : ∀ rest, EndsNumber rest → skipScalar (text ++ rest) = .ok rest) : IsPassed text := by
  obtain rfl := hText
  intro outer space rest hBefore hEnds
  exact skipValueIn_scalar (skipSpace_append_cons hBefore hSpace _) hc (h rest hEnds) outer

theorem isPassed_brackets (bracket : Bracket) {opening : Char} {inside : List Char}
    (hOpening : Bracket.ofOpening? opening = some bracket) (hSpace : isSpace opening = false)
    (h : ∀ outer rest, skipItems bracket true outer (inside ++ bracket.closing :: rest) =
      skipRestOf outer rest) : IsPassed (opening :: (inside ++ [bracket.closing])) := by
  intro outer space rest hBefore _
  have hText : skipSpace (space ++ (opening :: (inside ++ [bracket.closing]) ++ rest)) =
      opening :: (inside ++ bracket.closing :: rest) :=
    skipSpace_eq_cons_iff.mpr ⟨hSpace, space, hBefore, by simp⟩
  rw [skipValueIn_opening hText hOpening, h]

theorem IsNumber.isPassed {digits : List Char} (h : IsNumber digits) : IsPassed digits := by
  obtain ⟨c, others, hText, hc⟩ := h.exists_cons
  have hOpening : Bracket.ofOpening? c = none := by
    rw [Bracket.ofOpening?.eq_def]
    split <;> first | rfl | exact absurd hc (by decide)
  exact isPassed_scalar hText (isSpace_of_starts hc) hOpening fun rest => h.skipScalar_append

theorem StringText.isPassed {inside : List Char} {value : String} (h : StringText inside value) :
    IsPassed ('"' :: (inside ++ ['"'])) := by
  refine isPassed_scalar rfl rfl rfl ?_
  intro rest _
  rw [List.cons_append, List.append_assoc]
  exact h.skipString_append rest

/-- Behind an item of a list the list goes on. -/
theorem skipItems_list_value {first : Bool} {front before text rest : List Char} {v : Tree}
    (hFront : IsFront first front) (hBefore : IsSpacing before) (h : Written text v)
    (hPassed : IsPassed text) (hEnds : EndsNumber rest) (outer : List Bracket) :
    skipItems .list first outer (front ++ (before ++ (text ++ rest))) =
      skipItems .list false outer rest := by
  obtain ⟨c, others, rfl, hc, hClosing, -⟩ := h.exists_cons
  rw [List.cons_append, skipItems_value hFront hBefore hc hClosing]
  exact hPassed (.list :: outer) [] rest isSpacing_nil hEnds

/-- Behind a member of an object the object goes on. -/
theorem skipItems_object_value {first : Bool}
    {front before key behind between text rest : List Char} {name : String}
    (hFront : IsFront first front) (hBefore : IsSpacing before) (hKey : StringText key name)
    (hBehind : IsSpacing behind) (hBetween : IsSpacing between) (hPassed : IsPassed text)
    (hEnds : EndsNumber rest) (outer : List Bracket) :
    skipItems .object first outer (front ++ (before ++ '"' :: (key ++ '"' ::
        (behind ++ ':' :: (between ++ (text ++ rest)))))) = skipItems .object false outer rest := by
  have hColon : readColon (behind ++ ':' :: (between ++ (text ++ rest))) =
      .ok (between ++ (text ++ rest)) := readColon_eq_ok_iff.mpr ⟨behind, hBehind, rfl⟩
  rw [skipItems_member (nextKey_item hFront hBefore _) (hKey.readsKey _) hColon]
  exact hPassed (.object :: outer) between rest hBetween hEnds

mutual

theorem isPassed_written : ∀ (v : Tree) {text : List Char}, Written text v → IsPassed text
  | .null, _, .null => isPassed_scalar rfl rfl rfl fun _ _ => rfl
  | .boolean _, _, .isTrue => isPassed_scalar rfl rfl rfl fun _ _ => rfl
  | .boolean _, _, .isFalse => isPassed_scalar rfl rfl rfl fun _ _ => rfl
  | .number _, _, .number h => h.isPassed
  | .text _, _, .text h => h.isPassed
  | .list items, _, .list h => by
    refine isPassed_brackets .list rfl rfl ?_
    intro outer rest
    cases h with
    | nothing hSpace => exact skipItems_closing hSpace true outer rest
    | items h => exact skipItems_list items h (show IsFront true [] from rfl) outer rest
  | .object members, _, .object h => by
    refine isPassed_brackets .object rfl rfl ?_
    intro outer rest
    cases h with
    | nothing hSpace => exact skipItems_closing hSpace true outer rest
    | entries h => exact skipItems_object members h (show IsFront true [] from rfl) outer rest

theorem skipItems_list : ∀ (items : List Tree) {text : List Char}, ItemsText Written text items →
    ∀ {first : Bool} {front : List Char}, IsFront first front → ∀ (outer : List Bracket) rest,
      skipItems .list first outer (front ++ (text ++ ']' :: rest)) = skipRestOf outer rest
  | [v], _, .last hBefore h hAfter, _, _, hFront, outer, rest => by
    have hEnds : EndsNumber (']' :: rest) := endsNumber_cons (by decide) rest
    simp only [List.append_assoc]
    rw [skipItems_list_value hFront hBefore h (isPassed_written v h) (endsNumber_append hAfter hEnds)]
    exact skipItems_closing hAfter false outer rest
  | v :: items, _, .more hBefore h hAfter others, _, _, hFront, outer, rest => by
    have hComma : IsFront false (_ ++ [',']) := ⟨_, hAfter, rfl⟩
    have hOthers := skipItems_list items others hComma outer rest
    simp only [List.append_assoc, List.cons_append, List.nil_append] at hOthers ⊢
    rw [skipItems_list_value hFront hBefore h (isPassed_written v h)
      (endsNumber_append hAfter (endsNumber_comma _)), hOthers]

theorem skipItems_object : ∀ (members : List (String × Tree)) {text : List Char},
    EntriesText StringText Written text members → ∀ {first : Bool} {front : List Char},
      IsFront first front → ∀ (outer : List Bracket) rest,
        skipItems .object first outer (front ++ (text ++ '\x7d' :: rest)) = skipRestOf outer rest
  | [(name, v)], _, .last (.intro hBefore hk hBehind hBetween h hAfter), _, _, hFront, outer,
      rest => by
    simp only [List.append_assoc, List.cons_append]
    rw [skipItems_object_value hFront hBefore hk hBehind hBetween (isPassed_written v h)
      (endsNumber_append hAfter (endsNumber_brace rest))]
    exact skipItems_closing hAfter false outer rest
  | (name, v) :: members, _, .more (.intro hBefore hk hBehind hBetween h hAfter) others, _, _,
      hFront, outer, rest => by
    have hComma : IsFront false (_ ++ [',']) := ⟨_, hAfter, rfl⟩
    have hOthers := skipItems_object members others hComma outer rest
    simp only [List.append_assoc, List.cons_append, List.nil_append] at hOthers ⊢
    rw [skipItems_object_value hFront hBefore hk hBehind hBetween (isPassed_written v h)
      (endsNumber_append hAfter (endsNumber_comma _)), hOthers]

end

theorem Written.isPassed {text : List Char} {v : Tree} (h : Written text v) : IsPassed text :=
  isPassed_written v h

end StreamAdmission.Json
