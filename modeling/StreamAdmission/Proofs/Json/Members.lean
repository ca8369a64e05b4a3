import StreamAdmission.Proofs.Json.Record
import StreamAdmission.Proofs.Json.Skipping

/-!
# Members in any order

What a record is read from is given by its members, whatever their order. A reader that accepts a
value takes the text that would be passed over, so where an object is accepted its members are known:
none is given twice, none that is required is missing, and each one that is known was read.
-/

namespace StreamAdmission.Json

variable {α β σ : Type}

/-! ### What a reader takes -/

/-- Where the reader accepts a value, passing over it would have taken the same text. -/
def Passes (read : Reader α) : Prop :=
  ∀ text a rest, read text = .ok (a, rest) → ∀ outer, skipValueIn outer text = skipRestOf outer rest

theorem Passes.map {read : Reader α} (h : Passes read) (f : α → β) :
    Passes fun text => (read text).map fun (a, rest) => (f a, rest) := by
  intro text b rest hRead
  cases hResult : read text with
  | error failure => simp only [hResult, Except.map, reduceCtorEq] at hRead
  | ok result =>
    simp only [hResult, Except.map, Except.ok.injEq, Prod.mk.injEq] at hRead
    obtain ⟨-, rfl⟩ := hRead
    exact h text result.1 result.2 hResult

theorem passes_readString : Passes readString := by
  intro text value rest h outer
  unfold readString at h
  split at h
  · rename_i inside hText
    unfold readStringRest at h
    split at h
    · cases h
    rename_i hChars
    cases h
    exact skipValueIn_scalar hText rfl (skipString_of_readStringChars hChars) outer
  · cases h

theorem passes_readInteger (expected : String) {low high : Int} (hLow : minInteger ≤ low)
    (hHigh : high ≤ maxNatural) : Passes (readInteger expected low high) := by
  intro text z rest h outer
  obtain ⟨space, digits, hSpace, rfl, hInteger, -, -, hEnds⟩ :=
    (readInteger_eq_ok_iff hLow hHigh).mp h
  exact hInteger.isNumber.isPassed outer space rest hSpace hEnds

theorem Passes.optional {read : Reader α} (h : Passes read) : Passes (readOptional read) := by
  intro text value rest hRead outer
  obtain ⟨space, hSpace, hText⟩ := exists_eq_append_skipSpace text
  unfold readOptional at hRead
  split at hRead
  · rename_i hNull
    split at hRead
    · cases hRead
    · rename_i hWord
      cases hRead
      exact skipValueIn_scalar hNull rfl hWord outer
  · split at hRead
    · cases hRead
    · rename_i hValue
      cases hRead
      rw [hText, skipValueIn_append hSpace]
      exact h _ _ _ hValue outer

theorem Passes.readEntries_eq {readValue : Reader α} (h : Passes readValue) {steps : Nat}
    {first : Bool} {text rest : List Char} {entries : List (String × α)}
    (hRead : readEntries readStringRest readValue steps first text = .ok (entries, rest))
    (outer : List Bracket) : skipItems .object first outer text = skipRestOf outer rest := by
  induction steps generalizing first text entries with
  | zero => cases hRead
  | succ steps ih =>
    rw [readEntries] at hRead
    cases hNext : nextKey first text with
    | error failure =>
      rw [hNext] at hRead
      cases hRead
    | ok ahead =>
      rw [hNext] at hRead
      cases ahead with
      | closed behind =>
        cases hRead
        exact skipItems_end hNext outer
      | item behind =>
        simp only at hRead
        split at hRead
        · cases hRead
        rename_i hKey
        split at hRead
        · cases hRead
        rename_i hColon
        split at hRead
        · cases hRead
        rename_i hValue
        split at hRead
        · cases hRead
        rename_i hRest
        cases hRead
        rw [skipItems_member hNext hKey hColon, h _ _ _ hValue]
        exact ih hRest

theorem Passes.readMap {readValue : Reader α} (h : Passes readValue) :
    Passes (readMap readStringRest readValue) := by
  intro text entries rest hRead outer
  unfold Json.readMap at hRead
  split at hRead
  · rename_i hText
    rw [skipValueIn_opening hText rfl]
    exact h.readEntries_eq hRead outer
  · cases hRead

namespace Record

variable {record : Record σ}

theorem skipItems_next {first : Bool} {text rest : List Char}
    (h : nextValue first text = .ok (.item rest)) (outer : List Bracket) :
    skipItems .list first outer text = skipValueIn (.list :: outer) rest := by
  unfold nextValue at h
  split at h
  · cases h
  · cases h
  rename_i c others hClosing hText
  have hOpen : c ≠ Bracket.list.closing := hClosing
  cases first with
  | true =>
    cases h
    simp only [skipItems, hText, if_true, if_neg hOpen, skipItemKey]
  | false =>
    rw [if_neg Bool.false_ne_true] at h
    split at h
    · rename_i hComma
      obtain rfl := hComma
      split at h
      · cases h
      · cases h
      · cases h
        obtain ⟨space, hSpace, hRest⟩ := exists_eq_append_skipSpace others
        have hItem := skipValueIn_append hSpace (.list :: outer) (skipSpace others)
        rw [← hRest] at hItem
        simp only [skipItems, skipRestOf_cons, hText, Bool.false_eq_true, if_false, if_true,
          if_neg hOpen, skipItemKey, hItem]
    · cases h

theorem skipItems_listEnd {first : Bool} {text rest : List Char}
    (h : nextValue first text = .ok (.closed rest) ∨ readListEnd text = .ok rest)
    (outer : List Bracket) : skipItems .list first outer text = skipRestOf outer rest := by
  apply skipItems_closed
  rcases h with h | h
  · unfold nextValue at h
    split at h
    · rename_i hText
      cases h
      exact hText
    · cases h
    · split at h
      · cases h
      · split at h
        · split at h <;> cases h
        · cases h
  · unfold readListEnd at h
    split at h
    · rename_i hText
      cases h
      exact hText
    · cases h
    · split at h <;> cases h
    · cases h

theorem readElements_passes {members : List (Member σ)}
    (h : ∀ m ∈ members, ∀ value, Passes (m.read value)) {count : Nat} {value result : σ}
    {text rest : List Char}
    (hRead : record.readElements count members value text = .ok (result, rest))
    (outer : List Bracket) : skipItems .list (count = 0) outer text = skipRestOf outer rest := by
  induction members generalizing count value text with
  | nil =>
    rw [readElements] at hRead
    split at hRead
    · cases hRead
    · rename_i hEnd
      cases hRead
      exact skipItems_listEnd (Or.inr hEnd) outer
  | cons m members ih =>
    rw [readElements] at hRead
    split at hRead
    · cases hRead
    · rename_i hNext
      split at hRead
      · cases hRead
      · cases hRead
        exact skipItems_listEnd (Or.inl hNext) outer
    · rename_i hNext
      split at hRead
      · cases hRead
      rename_i hValue
      rw [skipItems_next hNext, h m List.mem_cons_self _ _ _ _ hValue]
      exact ih (fun m hm => h m (List.mem_cons_of_mem _ hm)) hRead

theorem member?_mem {name : String} {m : Member σ} (h : record.member? name = some m) :
    m ∈ record.members ∧ m.name = name := by
  refine ⟨List.mem_of_find?_eq_some h, ?_⟩
  have hName := List.find?_some h
  simpa using hName

theorem readMembers_passes (h : ∀ m ∈ record.members, ∀ value, Passes (m.read value))
    {steps : Nat} {first : Bool} {given : List String} {value result : σ} {text rest : List Char}
    (hRead : record.readMembers steps first given value text = .ok (result, rest))
    (outer : List Bracket) : skipItems .object first outer text = skipRestOf outer rest := by
  induction steps generalizing first given value text with
  | zero => cases hRead
  | succ steps ih =>
    rw [readMembers] at hRead
    cases hNext : nextKey first text with
    | error failure =>
      rw [hNext] at hRead
      cases hRead
    | ok ahead =>
      rw [hNext] at hRead
      cases ahead with
      | closed behind =>
        simp only at hRead
        split at hRead
        · cases hRead
        · cases hRead
          exact skipItems_end hNext outer
      | item behind =>
        simp only at hRead
        split at hRead
        · cases hRead
        rename_i hKey
        split at hRead
        · rename_i m hFound
          split at hRead
          · cases hRead
          split at hRead
          · cases hRead
          rename_i hColon
          split at hRead
          · cases hRead
          rename_i hValue
          rw [skipItems_member hNext hKey hColon, h m (member?_mem hFound).1 _ _ _ _ hValue]
          exact ih hRead
        · split at hRead
          · cases hRead
          rename_i hColon
          split at hRead
          · cases hRead
          rename_i hSkip
          rw [skipItems_member hNext hKey hColon, skipValueIn_of_skipValue hSkip]
          exact ih hRead

/-- A record takes one value if its members do. -/
theorem passes_read (h : ∀ m ∈ record.members, ∀ value, Passes (m.read value)) (start : σ) :
    Passes (record.read start) := by
  intro text result rest hRead outer
  unfold read at hRead
  split at hRead
  · rename_i hText
    rw [skipValueIn_opening hText rfl]
    exact readMembers_passes h hRead outer
  · rename_i hText
    rw [skipValueIn_opening hText rfl]
    exact readElements_passes h hRead outer
  · cases hRead

end Record

/-! ### Accepted members -/

/-- The reader accepts the value in one of its texts. -/
def Takes (read : Reader α) (v : Tree) : Prop :=
  ∃ text space rest a, Written text v ∧ IsSpacing space ∧ EndsNumber rest ∧
    read (space ++ (text ++ rest)) = .ok (a, rest)

theorem Takes.of_map {read : Reader α} (f : α → β) {v : Tree}
    (h : Takes (fun text => (read text).map fun (a, rest) => (f a, rest)) v) : Takes read v := by
  obtain ⟨text, space, rest, b, hText, hSpace, hEnds, hRead⟩ := h
  cases hResult : read (space ++ (text ++ rest)) with
  | error failure => simp only [hResult, Except.map, reduceCtorEq] at hRead
  | ok result =>
    simp only [hResult, Except.map, Except.ok.injEq, Prod.mk.injEq] at hRead
    obtain ⟨a, _⟩ := result
    obtain ⟨-, rfl⟩ := hRead
    exact ⟨text, space, _, a, hText, hSpace, hEnds, hResult⟩

theorem Takes.of_optional {read : Reader α} {v : Tree} (h : Takes (readOptional read) v)
    (hv : v ≠ .null) : Takes read v := by
  obtain ⟨text, space, rest, b, hText, hSpace, hEnds, hRead⟩ := h
  obtain ⟨c, others, rfl, hc, -, hNull⟩ := hText.exists_cons
  have hSkip : skipSpace (space ++ (c :: others ++ rest)) = c :: (others ++ rest) :=
    skipSpace_append_cons hSpace hc _
  rw [readOptional, hSkip] at hRead
  split at hRead
  · rename_i hHead
    exact absurd (List.cons.inj hHead).1 (hNull hv)
  · split at hRead
    · cases hRead
    · rename_i a behind hValue
      obtain ⟨-, rfl⟩ := Prod.mk.inj (Except.ok.inj hRead)
      exact ⟨c :: others, [], behind, a, hText, isSpacing_nil, hEnds, hValue⟩

/-- Of a text that starts with a value, a reader takes no more and no less than the value. -/
theorem Passes.rest_eq {read : Reader α} (h : Passes read) {text space rest behind : List Char}
    {a : α} (hText : IsPassed text) (hSpace : IsSpacing space) (hEnds : EndsNumber rest)
    (hRead : read (space ++ (text ++ rest)) = .ok (a, behind)) : behind = rest := by
  have hTaken := h _ a behind hRead []
  rw [hText [] space rest hSpace hEnds, skipRestOf_nil, skipRestOf_nil] at hTaken
  exact (Except.ok.inj hTaken).symm

theorem Takes.of_decode {read : Reader α} (h : Passes read) {text : String} {v : Tree} {a : α}
    (hText : IsTextOf text v) (hDecode : decode read text = .ok a) : Takes read v := by
  obtain ⟨before, inside, after, hBefore, hInside, hAfter, hWhole⟩ := hText
  obtain ⟨rest, hRead, -⟩ := decode_eq_ok_iff.mp hDecode
  have hEnds := endsNumber_of_isSpacing hAfter
  rw [hWhole] at hRead
  obtain rfl := h.rest_eq hInside.isPassed hBefore hEnds hRead
  exact ⟨inside, before, rest, a, hInside, hBefore, hEnds, hRead⟩

/-- Of the known names one is given twice, or one that has to be given is missing. -/
def IsSpoiled (known needed : List String) (members : List (String × Tree)) : Prop :=
  (∃ name ∈ known, 2 ≤ (members.map Prod.fst).count name) ∨
    ∃ name ∈ needed, name ∉ members.map Prod.fst

namespace Record

/-- The members of an object that a record is read from, where those of the given names were read
before. -/
inductive Accepts (record : Record σ) : List String → List (String × Tree) → Prop where
  | nothing {given : List String} (complete : record.missing? given = none) :
    Accepts record given []
  | known {given : List String} {name : String} {v : Tree} {members : List (String × Tree)}
    {m : Member σ} (value : σ) (found : record.member? name = some m) (fresh : name ∉ given)
    (takes : Takes (m.read value) v) (others : Accepts record (name :: given) members) :
    Accepts record given ((name, v) :: members)
  | unknown {given : List String} {name : String} {v : Tree} {members : List (String × Tree)}
    (found : record.member? name = none) (others : Accepts record given members) :
    Accepts record given ((name, v) :: members)

variable {record : Record σ}

theorem missing?_of_readMembers {steps : Nat} {first : Bool} {given : List String}
    {value result : σ} {space rest behind : List Char} (hSpace : IsSpacing space)
    (h : record.readMembers steps first given value (space ++ '\x7d' :: rest) =
      .ok (result, behind)) : record.missing? given = none := by
  cases steps with
  | zero => cases h
  | succ steps =>
    rw [readMembers, nextKey_closed hSpace] at h
    simp only at h
    split at h
    · cases h
    · assumption

/-- What is known of a member from its being read, and how reading goes on behind it. -/
theorem accepts_cons (hm : ∀ m ∈ record.members, ∀ value, Passes (m.read value)) {steps : Nat}
    {first : Bool} {given : List String} {value result : σ}
    {front before key behind between text rest last : List Char} {name : String} {v : Tree}
    {members : List (String × Tree)} (hFront : IsFront first front) (hBefore : IsSpacing before)
    (hKey : StringText key name) (hBehind : IsSpacing behind) (hBetween : IsSpacing between)
    (hText : Written text v) (hEnds : EndsNumber rest)
    (h : record.readMembers steps first given value
      (front ++ (before ++ '"' :: (key ++ '"' ::
        (behind ++ ':' :: (between ++ (text ++ rest)))))) = .ok (result, last))
    (hOthers : ∀ steps given value,
      record.readMembers steps false given value rest = .ok (result, last) →
        record.Accepts given members) : record.Accepts given ((name, v) :: members) := by
  have hColon : readColon (behind ++ ':' :: (between ++ (text ++ rest))) =
      .ok (between ++ (text ++ rest)) := readColon_eq_ok_iff.mpr ⟨behind, hBehind, rfl⟩
  cases steps with
  | zero => cases h
  | succ steps =>
    rw [readMembers, nextKey_item hFront hBefore] at h
    simp only [hKey.readsKey _, hColon] at h
    split at h
    · rename_i m hFound
      split at h
      · cases h
      rename_i hFresh
      split at h
      · cases h
      rename_i next _ hValue
      obtain rfl := (hm m (member?_mem hFound).1 value).rest_eq hText.isPassed hBetween hEnds hValue
      exact .known value hFound (by simpa using hFresh)
        ⟨text, between, _, next, hText, hBetween, hEnds, hValue⟩ (hOthers _ _ _ h)
    · rename_i hFound
      rw [skipValue, hText.isPassed [] between rest hBetween hEnds, skipRestOf_nil] at h
      exact .unknown hFound (hOthers _ _ _ h)

theorem accepts_of_readMembers (hm : ∀ m ∈ record.members, ∀ value, Passes (m.read value))
    {text : List Char} {members : List (String × Tree)}
    (hText : EntriesText StringText Written text members) {steps : Nat} {first : Bool}
    {given : List String} {value result : σ} {front rest last : List Char}
    (hFront : IsFront first front)
    (h : record.readMembers steps first given value (front ++ (text ++ '\x7d' :: rest)) =
      .ok (result, last)) : record.Accepts given members := by
  induction hText generalizing steps first given value front with
  | last hEntry =>
    cases hEntry with
    | intro hBefore hk hBehind hBetween hv hAfter =>
      simp only [List.append_assoc, List.cons_append] at h
      refine accepts_cons hm hFront hBefore hk hBehind hBetween hv
        (endsNumber_append hAfter (endsNumber_brace rest)) h ?_
      intro steps given value hEnd
      exact .nothing (missing?_of_readMembers hAfter hEnd)
  | @more _ others _ _ hEntry _ ih =>
    cases hEntry with
    | @intro _ _ _ _ _ after _ _ hBefore hk hBehind hBetween hv hAfter =>
      have hComma : IsFront false (after ++ [',']) := ⟨after, hAfter, rfl⟩
      simp only [List.append_assoc, List.cons_append] at h
      refine accepts_cons hm hFront hBefore hk hBehind hBetween hv
        (endsNumber_append hAfter (endsNumber_comma _)) h ?_
      intro steps given value hRest
      have hNext : record.readMembers steps false given value
          (after ++ [','] ++ (others ++ '\x7d' :: rest)) = .ok (result, last) := by
        simpa only [List.append_assoc, List.cons_append, List.nil_append] using hRest
      exact ih hComma hNext

/-- Where a record is read from an object, its members are entered one after another. -/
theorem accepts_of_takes (hm : ∀ m ∈ record.members, ∀ value, Passes (m.read value)) {start : σ}
    {members : List (String × Tree)} (h : Takes (record.read start) (.object members)) :
    record.Accepts [] members := by
  obtain ⟨text, space, rest, result, hText, hSpace, hEnds, hRead⟩ := h
  cases hText with
  | @object inside _ hInside =>
    have hOpening : skipSpace (space ++ ('\x7b' :: (inside ++ ['\x7d']) ++ rest)) =
        '\x7b' :: (inside ++ '\x7d' :: rest) :=
      skipSpace_eq_cons_iff.mpr ⟨rfl, space, hSpace, by simp⟩
    rw [read, hOpening] at hRead
    cases hInside with
    | nothing hNothing => exact .nothing (missing?_of_readMembers hNothing hRead)
    | entries hEntries =>
      exact accepts_of_readMembers hm hEntries (show IsFront true [] from rfl) hRead

theorem Accepts.not_mem {given : List String} {members : List (String × Tree)}
    (h : record.Accepts given members) {name : String} (hKnown : record.member? name ≠ none)
    (hGiven : name ∈ given) : name ∉ members.map Prod.fst := by
  induction h with
  | nothing _ => exact List.not_mem_nil
  | known _ _ fresh _ _ ih =>
    rw [List.map_cons, List.mem_cons, not_or]
    refine ⟨?_, ih (List.mem_cons_of_mem _ hGiven)⟩
    rintro rfl
    exact fresh hGiven
  | unknown found _ ih =>
    rw [List.map_cons, List.mem_cons, not_or]
    refine ⟨?_, ih hGiven⟩
    rintro rfl
    exact hKnown found

theorem Accepts.count_le_one {given : List String} {members : List (String × Tree)}
    (h : record.Accepts given members) {name : String} (hKnown : record.member? name ≠ none) :
    (members.map Prod.fst).count name ≤ 1 := by
  induction h with
  | nothing _ => exact Nat.zero_le 1
  | @known _ given' _ _ _ _ _ _ _ others ih =>
    rw [List.map_cons, List.count_cons]
    by_cases hName : given' = name
    · have hAbsent := others.not_mem hKnown (hName ▸ List.mem_cons_self)
      rw [List.count_eq_zero.mpr hAbsent]
      split <;> decide
    · simpa [hName] using ih
  | @unknown _ name' _ _ found _ ih =>
    have hName : name' ≠ name := by
      rintro rfl
      exact hKnown found
    rw [List.map_cons, List.count_cons]
    simpa [hName] using ih

theorem Accepts.mem_of_required {given : List String} {members : List (String × Tree)}
    (h : record.Accepts given members) {m : Member σ} (hm : m ∈ record.members)
    (hRequired : m.required = true) : m.name ∈ given ∨ m.name ∈ members.map Prod.fst := by
  induction h with
  | nothing complete =>
    have hNone := List.find?_eq_none.mp complete m hm
    simp only [hRequired, Bool.true_and, Bool.not_eq_true, Bool.not_eq_false'] at hNone
    exact Or.inl (List.contains_iff_mem.mp (by simpa using hNone))
  | known _ _ _ _ _ ih =>
    rw [List.map_cons, List.mem_cons]
    rcases ih with hGiven | hMember
    · rcases List.mem_cons.mp hGiven with hName | hGiven
      · exact Or.inr (Or.inl hName)
      · exact Or.inl hGiven
    · exact Or.inr (Or.inr hMember)
  | unknown _ _ ih => exact ih.imp_right (List.mem_cons_of_mem _)

theorem Accepts.takes {given : List String} {members : List (String × Tree)}
    (h : record.Accepts given members) {name : String} {v : Tree} {m : Member σ}
    (hMember : (name, v) ∈ members) (hFound : record.member? name = some m) :
    ∃ value, Takes (m.read value) v := by
  induction h with
  | nothing _ => cases hMember
  | known value found _ takes _ ih =>
    rcases List.mem_cons.mp hMember with hSame | hMember
    · obtain ⟨rfl, rfl⟩ := Prod.mk.inj hSame
      rw [found] at hFound
      obtain rfl := Option.some.inj hFound
      exact ⟨value, takes⟩
    · exact ih hMember
  | unknown found _ ih =>
    rcases List.mem_cons.mp hMember with hSame | hMember
    · obtain ⟨rfl, rfl⟩ := Prod.mk.inj hSame
      rw [found] at hFound
      cases hFound
    · exact ih hMember

theorem Accepts.not_isSpoiled {members : List (String × Tree)} (h : record.Accepts [] members)
    {known needed : List String}
    (hKnown : known = record.members.map (·.name))
    (hNeeded : needed = (record.members.filter (·.required)).map (·.name)) :
    ¬ IsSpoiled known needed members := by
  rintro (⟨name, hName, hTwice⟩ | ⟨name, hName, hMissing⟩)
  · rw [hKnown] at hName
    obtain ⟨m, hm, rfl⟩ := List.mem_map.mp hName
    have hFound : record.member? m.name ≠ none := by
      rw [member?, ← Option.isSome_iff_ne_none, List.find?_isSome]
      exact ⟨m, hm, by simp⟩
    have hOnce := h.count_le_one hFound
    omega
  · rw [hNeeded] at hName
    obtain ⟨m, hm, rfl⟩ := List.mem_map.mp hName
    obtain ⟨hMember, hRequired⟩ := List.mem_filter.mp hm
    exact hMissing ((h.mem_of_required hMember hRequired).resolve_left List.not_mem_nil)

end Record

end StreamAdmission.Json
