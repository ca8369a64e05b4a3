import StreamAdmission.Proofs.Json.Integer
import StreamAdmission.Proofs.Json.Object

/-!
# Records as they are written

A record is read from an object member by member. What is read depends only on the members, not on
the white space between them.
-/

namespace StreamAdmission.Json

variable {σ α β : Type}

/-- The reader takes every text of `v` as `b`. -/
def ReadsAs (Value : List Char → α → Prop) (read : Reader β) (v : α) (b : β) : Prop :=
  ∀ text, Value text v → Reads read text b

/-- Every text of `v` is passed over. -/
def Skips (Value : List Char → α → Prop) (v : α) : Prop :=
  ∀ text, Value text v → ∀ space rest, IsSpacing space → EndsNumber rest →
    skipValue (space ++ (text ++ rest)) = .ok rest

theorem ReadsAs.map {Value : List Char → α → Prop} {read : Reader β} {v : α} {b : β} {γ : Type}
    (h : ReadsAs Value read v b) (f : β → γ) :
    ReadsAs Value (fun text => (read text).map fun (b, rest) => (f b, rest)) v (f b) := by
  intro text hText space rest hSpace hEnds
  simp only [h text hText space rest hSpace hEnds, Except.map]

/-- A value that does not start as `null` does is read as an optional one. -/
theorem ReadsAs.optional_of_starts {Value : List Char → α → Prop} {read : Reader β} {v : α} {b : β}
    (hStarts : ∀ text, Value text v → ∃ c others, text = c :: others ∧ isSpace c = false ∧ c ≠ 'n')
    (h : ReadsAs Value read v b) : ReadsAs Value (readOptional read) v (some b) := by
  intro text hText space rest hSpace hEnds
  obtain ⟨c, others, rfl, hc, hNull⟩ := hStarts text hText
  have hSkip : skipSpace (space ++ (c :: others ++ rest)) = c :: (others ++ rest) :=
    skipSpace_append_cons hSpace hc _
  have hRead : read (c :: (others ++ rest)) = .ok (b, rest) :=
    h _ hText [] rest isSpacing_nil hEnds
  rw [readOptional, hSkip]
  split
  · rename_i hHead
    exact absurd (List.cons.inj hHead).1 hNull
  · simp only [hRead]

/-- A value that is written between quotes is read as a string. -/
theorem ReadsAs.of_quotes {Value : List Char → α → Prop} {v : α} {value : String}
    (h : ∀ text, Value text v → ∃ inside, text = '"' :: (inside ++ ['"']) ∧
      ReadsKey readStringRest inside value) : ReadsAs Value readString v value := by
  intro text hText space rest hSpace _
  obtain ⟨inside, rfl, hInside⟩ := h text hText
  have hQuote : skipSpace (space ++ ('"' :: (inside ++ ['"']) ++ rest)) =
      '"' :: (inside ++ '"' :: rest) :=
    skipSpace_eq_cons_iff.mpr ⟨rfl, space, hSpace, by simp⟩
  simp only [readString, hQuote]
  exact hInside rest

theorem ReadsAs.of_digits {Value : List Char → α → Prop} {v : α} (expected : String)
    {low high z : Int} (hLow : minInteger ≤ low) (hHigh : high ≤ maxNatural)
    (hIn : low ≤ z ∧ z ≤ high) (h : ∀ text, Value text v → IsInteger text z) :
    ReadsAs Value (readInteger expected low high) v z := by
  intro text hText space rest hSpace hEnds
  exact (readInteger_eq_ok_iff hLow hHigh).mpr
    ⟨space, text, hSpace, rfl, h text hText, hIn.1, hIn.2, hEnds⟩

/-- The texts of a value are these members between braces. -/
def IsObject (Key : List Char → String → Prop) (Value : List Char → α → Prop)
    (members : List (String × α)) (text : List Char) : Prop :=
  ∃ inside, text = '\x7b' :: (inside ++ ['\x7d']) ∧ InsideText Key Value inside members

theorem ReadsAs.of_map {Key : List Char → String → Prop} {Value : List Char → α → Prop}
    (hKey : ∀ text name, Key text name → ReadsKey readStringRest text name) {readValue : Reader β}
    {value : β → α} (hValue : ∀ b, ReadsAs Value readValue (value b) b)
    {entries : List (String × β)} {v : α}
    (h : ∀ text, Value text v →
      IsObject Key Value (entries.map fun entry => (entry.1, value entry.2)) text) :
    ReadsAs Value (readMap readStringRest readValue) v entries := by
  intro text hText space rest hSpace _
  obtain ⟨inside, rfl, hInside⟩ := h text hText
  have hRead := hInside.of_map.readMap_eq hKey (fun text b hText => hValue b text hText) hSpace rest
  simpa only [List.append_assoc, List.cons_append, List.nil_append] using hRead

theorem endsNumber_of_isSpacing {space : List Char} (h : IsSpacing space) : EndsNumber space := by
  have hEnds := endsNumber_append h (show EndsNumber [] from nofun)
  rwa [List.append_nil] at hEnds

/-- A text that holds a value and white space around it is decoded as the value is read. -/
theorem ReadsAs.decode_eq_of_inside {Value : List Char → α → Prop} {read : Reader β} {v : α} {b : β}
    (h : ReadsAs Value read v b) {text : String} {before inside after : List Char}
    (hBefore : IsSpacing before) (hInside : Value inside v) (hAfter : IsSpacing after)
    (hText : text.toList = before ++ (inside ++ after)) : decode read text = .ok b := by
  rw [decode_eq_ok_iff, hText]
  exact ⟨after, h inside hInside before after hBefore (endsNumber_of_isSpacing hAfter), hAfter⟩

namespace Record

/-- Entering members one after another in a record where those of the given names have been
entered. At the end no required member is missing. -/
inductive Enters (record : Record σ) (Value : List Char → α → Prop) :
    List String → σ → List (String × α) → σ → Prop where
  | nothing {given : List String} {value : σ} (complete : record.missing? given = none) :
    Enters record Value given value [] value
  | known {given : List String} {value next result : σ} {name : String} {v : α}
    {members : List (String × α)} {m : Member σ} (found : record.member? name = some m)
    (fresh : name ∉ given) (reads : ReadsAs Value (m.read value) v next)
    (others : Enters record Value (name :: given) next members result) :
    Enters record Value given value ((name, v) :: members) result
  | unknown {given : List String} {value result : σ} {name : String} {v : α}
    {members : List (String × α)} (found : record.member? name = none) (skips : Skips Value v)
    (others : Enters record Value given value members result) :
    Enters record Value given value ((name, v) :: members) result

variable {record : Record σ} {Key : List Char → String → Prop} {Value : List Char → α → Prop}

theorem readMembers_closed (steps : Nat) (first : Bool) {given : List String} {value : σ}
    (h : record.missing? given = none) {space : List Char} (hSpace : IsSpacing space)
    (rest : List Char) :
    record.readMembers (steps + 1) first given value (space ++ '\x7d' :: rest) =
      .ok (value, rest) := by
  simp only [readMembers, nextKey_closed hSpace, h]

theorem readMembers_entry {given : List String} {value result : σ} {name : String} {v : α}
    {members : List (String × α)} (h : Enters record Value given value ((name, v) :: members) result)
    {front before key behind between text rest others : List Char} (steps : Nat) {first : Bool}
    (hFront : IsFront first front) (hBefore : IsSpacing before)
    (hKey : ReadsKey readStringRest key name) (hBehind : IsSpacing behind)
    (hBetween : IsSpacing between) (hText : Value text v) (hEnds : EndsNumber rest)
    (hOthers : ∀ given value, Enters record Value given value members result →
      record.readMembers steps false given value rest = .ok (result, others)) :
    record.readMembers (steps + 1) first given value
        (front ++ (before ++ '"' :: (key ++ '"' ::
          (behind ++ ':' :: (between ++ (text ++ rest)))))) = .ok (result, others) := by
  have hColon : readColon (behind ++ ':' :: (between ++ (text ++ rest))) =
      .ok (between ++ (text ++ rest)) := readColon_eq_ok_iff.mpr ⟨behind, hBehind, rfl⟩
  rw [readMembers, nextKey_item hFront hBefore]
  cases h with
  | known found fresh reads enters =>
    have hFresh : given.contains name = false := by simpa using fresh
    simp only [hKey _, found, hFresh, Bool.false_eq_true, if_false, hColon,
      reads text hText between rest hBetween hEnds, hOthers _ _ enters]
  | unknown found skips enters =>
    simp only [hKey _, found, hColon, skips text hText between rest hBetween hEnds,
      hOthers _ _ enters]

theorem readMembers_eq (hKey : ∀ text name, Key text name → ReadsKey readStringRest text name)
    {text : List Char} {members : List (String × α)} (hText : EntriesText Key Value text members)
    {given : List String} {value result : σ} (h : Enters record Value given value members result)
    {steps : Nat} (hSteps : members.length < steps) {first : Bool} {front : List Char}
    (hFront : IsFront first front) (rest : List Char) :
    record.readMembers steps first given value (front ++ (text ++ '\x7d' :: rest)) =
      .ok (result, rest) := by
  induction hText generalizing given value steps first front with
  | last hEntry =>
    obtain ⟨steps, rfl⟩ : ∃ s, steps = s + 2 := ⟨steps - 2, by simp at hSteps; omega⟩
    cases hEntry with
    | intro hBefore hk hBehind hBetween hv hAfter =>
      simp only [List.append_assoc, List.cons_append]
      refine readMembers_entry h (steps + 1) hFront hBefore (hKey _ _ hk) hBehind hBetween hv
        (endsNumber_append hAfter (endsNumber_brace rest)) ?_
      intro given value hEnd
      cases hEnd with
      | nothing complete => exact readMembers_closed steps false complete hAfter rest
  | @more _ _ _ entries hEntry _ ih =>
    obtain ⟨steps, rfl⟩ : ∃ s, steps = s + 1 := ⟨steps - 1, by simp at hSteps; omega⟩
    cases hEntry with
    | @intro _ _ _ _ _ after _ _ hBefore hk hBehind hBetween hv hAfter =>
      have hLess : entries.length < steps := by simp at hSteps; omega
      have hComma : IsFront false (after ++ [',']) := ⟨after, hAfter, rfl⟩
      have hOthers := fun given value
        (hEnters : Enters record Value given value entries result) => ih hEnters hLess hComma
      simp only [List.append_assoc, List.cons_append, List.nil_append] at hOthers ⊢
      exact readMembers_entry h steps hFront hBefore (hKey _ _ hk) hBehind hBetween hv
        (endsNumber_append hAfter (endsNumber_comma _)) hOthers

theorem Enters.read_eq (hKey : ∀ text name, Key text name → ReadsKey readStringRest text name)
    {start result : σ} {members : List (String × α)}
    (h : Enters record Value [] start members result) {space inside : List Char}
    (hSpace : IsSpacing space) (hInside : InsideText Key Value inside members) (rest : List Char) :
    record.read start (space ++ '\x7b' :: (inside ++ '\x7d' :: rest)) = .ok (result, rest) := by
  rw [read, skipSpace_append_cons hSpace rfl]
  cases hInside with
  | nothing hNothing =>
    cases h with
    | nothing complete => exact readMembers_closed _ true complete hNothing rest
  | entries hEntries =>
    have hLength := hEntries.length_le
    refine readMembers_eq hKey hEntries h ?_ (show IsFront true [] from rfl) rest
    simp only [List.length_append]
    omega

theorem Enters.readsAs_of_object
    (hKey : ∀ text name, Key text name → ReadsKey readStringRest text name) {start result : σ}
    {members : List (String × α)} (h : Enters record Value [] start members result) {v : α}
    (hObject : ∀ text, Value text v → IsObject Key Value members text) :
    ReadsAs Value (record.read start) v result := by
  intro text hText space rest hSpace _
  obtain ⟨inside, rfl, hInside⟩ := hObject text hText
  have hRead := h.read_eq hKey hSpace hInside rest
  simpa only [List.append_assoc, List.cons_append, List.nil_append] using hRead

end Record

end StreamAdmission.Json
