import StreamAdmission.Proofs.Json.Number

/-!
# Objects as they are written

An object is a pair of braces around entries with commas between them; an entry is a key between
quotes, a colon and a value, with white space anywhere between these. How keys and values are written
is left open. A reader of entries accepts such texts and, if its readers of keys and values accept
nothing else, no others.
-/

namespace StreamAdmission.Json

variable {κ α : Type}

section Grammar
variable (Key : List Char → κ → Prop) (Value : List Char → α → Prop)

/-- An entry with the white space around it. -/
inductive EntryText : List Char → κ × α → Prop where
  | intro {before key behind between value after : List Char} {k : κ} {v : α}
    (space_before : IsSpacing before) (key_text : Key key k) (space_behind : IsSpacing behind)
    (space_between : IsSpacing between) (value_text : Value value v)
    (space_after : IsSpacing after) :
    EntryText
      (before ++ '"' :: (key ++ '"' :: (behind ++ ':' :: (between ++ (value ++ after))))) (k, v)

/-- One or more entries with commas between them. -/
inductive EntriesText : List Char → List (κ × α) → Prop where
  | last {text : List Char} {entry : κ × α} (h : EntryText Key Value text entry) :
    EntriesText text [entry]
  | more {text rest : List Char} {entry : κ × α} {entries : List (κ × α)}
    (h : EntryText Key Value text entry) (others : EntriesText rest entries) :
    EntriesText (text ++ ',' :: rest) (entry :: entries)

/-- What stands between the braces of an object. -/
inductive InsideText : List Char → List (κ × α) → Prop where
  | nothing {space : List Char} (h : IsSpacing space) : InsideText space []
  | entries {entries : List (κ × α)} {text : List Char} (h : EntriesText Key Value text entries) :
    InsideText text entries

variable {Key Value} {β : Type}

theorem EntriesText.of_map {f : β → α} {text : List Char} {entries : List (κ × β)}
    (h : EntriesText Key Value text (entries.map fun entry => (entry.1, f entry.2))) :
    EntriesText Key (fun text b => Value text (f b)) text entries := by
  have hEntry : ∀ {text : List Char} {k : κ} {b : β}, EntryText Key Value text (k, f b) →
      EntryText Key (fun text b => Value text (f b)) text (k, b) := by
    intro text k b h
    cases h with
    | intro hBefore hk hBehind hBetween hv hAfter =>
      exact .intro hBefore hk hBehind hBetween hv hAfter
  induction entries generalizing text with
  | nil => cases h
  | cons entry entries ih =>
    rw [List.map_cons] at h
    generalize hOthers : entries.map (fun entry => (entry.1, f entry.2)) = others at h
    cases h with
    | last h =>
      rw [List.map_eq_nil_iff.mp hOthers]
      exact .last (hEntry h)
    | more h others =>
      rw [← hOthers] at others
      exact .more (hEntry h) (ih others)

theorem InsideText.of_map {f : β → α} {text : List Char} {entries : List (κ × β)}
    (h : InsideText Key Value text (entries.map fun entry => (entry.1, f entry.2))) :
    InsideText Key (fun text b => Value text (f b)) text entries := by
  generalize hAll : entries.map (fun entry => (entry.1, f entry.2)) = all at h
  cases h with
  | nothing hSpace =>
    rw [List.map_eq_nil_iff.mp hAll]
    exact .nothing hSpace
  | entries h =>
    rw [← hAll] at h
    exact .entries h.of_map

end Grammar

/-! ### The next key -/

/-- What stands before the first entry, which is nothing, or before one of the others: a comma, and
the white space that is left before it. -/
def IsFront : Bool → List Char → Prop
  | true, text => text = []
  | false, text => ∃ space, IsSpacing space ∧ text = space ++ [',']

theorem keyAhead_eq_ok_iff {missing : Cause} {text : List Char} {ahead : Ahead} :
    keyAhead missing text = .ok ahead ↔ ∃ rest, ahead = .item rest ∧ text = '"' :: rest := by
  unfold keyAhead
  split
  · constructor
    · intro h
      exact ⟨_, (Except.ok.inj h).symm, rfl⟩
    · rintro ⟨rest, rfl, hText⟩
      rw [(List.cons.inj hText).2]
  · exact iff_of_false nofun fun ⟨_, _, h⟩ => nomatch h
  · rename_i hQuote _
    exact iff_of_false nofun fun ⟨rest, _, h⟩ => hQuote rest h

theorem nextKey_closed {first : Bool} {space : List Char} (h : IsSpacing space)
    (rest : List Char) : nextKey first (space ++ '\x7d' :: rest) = .ok (.closed rest) := by
  rw [nextKey, skipSpace_append_cons h rfl]
  rfl

theorem nextKey_item {first : Bool} {front space : List Char} (h : IsFront first front)
    (hSpace : IsSpacing space) (rest : List Char) :
    nextKey first (front ++ (space ++ '"' :: rest)) = .ok (.item rest) := by
  have hQuote : skipSpace (space ++ '"' :: rest) = '"' :: rest :=
    skipSpace_append_cons hSpace rfl rest
  cases first with
  | true =>
    rw [show front = [] from h, List.nil_append, nextKey, hQuote]
    rfl
  | false =>
    obtain ⟨before, hBefore, rfl⟩ := h
    have hComma : skipSpace (before ++ [','] ++ (space ++ '"' :: rest)) =
        ',' :: (space ++ '"' :: rest) :=
      skipSpace_eq_cons_iff.mpr ⟨rfl, before, hBefore, by simp⟩
    rw [nextKey, hComma]
    simp [hQuote, keyAhead]

/-- What comes next is the closing brace, or a key with its front before it. -/
theorem nextKey_cases {first : Bool} {text : List Char} {ahead : Ahead}
    (h : nextKey first text = .ok ahead) :
    (∃ space rest, IsSpacing space ∧ text = space ++ '\x7d' :: rest ∧ ahead = .closed rest) ∨
      ∃ front space rest, IsFront first front ∧ IsSpacing space ∧
        text = front ++ (space ++ '"' :: rest) ∧ ahead = .item rest := by
  unfold nextKey at h
  split at h
  · rename_i rest hText
    obtain ⟨_, space, hSpace, rfl⟩ := skipSpace_eq_cons_iff.mp hText
    exact Or.inl ⟨space, rest, hSpace, rfl, (Except.ok.inj h).symm⟩
  · cases h
  · rename_i c tail _ hText
    obtain ⟨_, before, hBefore, rfl⟩ := skipSpace_eq_cons_iff.mp hText
    cases first with
    | true =>
      obtain ⟨rest, rfl, hQuote⟩ := keyAhead_eq_ok_iff.mp h
      exact Or.inr ⟨[], before, rest, rfl, hBefore, by rw [hQuote, List.nil_append], rfl⟩
    | false =>
      rw [if_neg Bool.false_ne_true] at h
      split at h
      · rename_i hComma
        split at h
        · cases h
        · obtain ⟨rest, rfl, hQuote⟩ := keyAhead_eq_ok_iff.mp h
          obtain ⟨_, space, hSpace, rfl⟩ := skipSpace_eq_cons_iff.mp hQuote
          refine Or.inr ⟨before ++ [','], space, rest, ⟨before, hBefore, rfl⟩, hSpace, ?_, rfl⟩
          rw [hComma, List.append_assoc, List.singleton_append]
      · cases h

theorem readColon_eq_ok_iff {text rest : List Char} :
    readColon text = .ok rest ↔ ∃ space, IsSpacing space ∧ text = space ++ ':' :: rest := by
  constructor
  · intro h
    unfold readColon at h
    split at h
    · rename_i hText
      obtain ⟨_, space, hSpace, rfl⟩ := skipSpace_eq_cons_iff.mp hText
      cases h
      exact ⟨space, hSpace, rfl⟩
    · cases h
    · cases h
  · rintro ⟨space, hSpace, rfl⟩
    rw [readColon, skipSpace_append_cons hSpace rfl]
    rfl

/-! ### Entries -/

/-- The reader takes a text from behind an opening quote, and the closing quote with it. -/
def ReadsKey (read : Reader κ) (text : List Char) (key : κ) : Prop :=
  ∀ rest, read (text ++ '"' :: rest) = .ok (key, rest)

/-- The reader takes a text with the white space before it, wherever the text may end. -/
def Reads (read : Reader α) (text : List Char) (value : α) : Prop :=
  ∀ space rest, IsSpacing space → EndsNumber rest → read (space ++ (text ++ rest)) = .ok (value, rest)

theorem endsNumber_append {space : List Char} (h : IsSpacing space) {rest : List Char}
    (hRest : EndsNumber rest) : EndsNumber (space ++ rest) := by
  cases space with
  | nil => exact hRest
  | cons c space =>
    apply endsNumber_cons
    rcases h c List.mem_cons_self with rfl | rfl | rfl | rfl <;> decide

theorem endsNumber_comma (rest : List Char) : EndsNumber (',' :: rest) :=
  endsNumber_cons (by decide) rest

theorem endsNumber_brace (rest : List Char) : EndsNumber ('\x7d' :: rest) :=
  endsNumber_cons (by decide) rest

section
variable {readKey : Reader κ} {readValue : Reader α}

theorem readEntries_closed (steps : Nat) (first : Bool) {space : List Char} (h : IsSpacing space)
    (rest : List Char) :
    readEntries readKey readValue (steps + 1) first (space ++ '\x7d' :: rest) = .ok ([], rest) := by
  rw [readEntries, nextKey_closed h]

theorem readEntries_entry (steps : Nat) {first : Bool}
    {front before key behind between value rest others : List Char} {k : κ} {v : α}
    {entries : List (κ × α)} (hFront : IsFront first front) (hBefore : IsSpacing before)
    (hKey : ReadsKey readKey key k) (hBehind : IsSpacing behind) (hBetween : IsSpacing between)
    (hValue : Reads readValue value v) (hEnds : EndsNumber rest)
    (hOthers : readEntries readKey readValue steps false rest = .ok (entries, others)) :
    readEntries readKey readValue (steps + 1) first
        (front ++ (before ++ '"' :: (key ++ '"' ::
          (behind ++ ':' :: (between ++ (value ++ rest)))))) = .ok ((k, v) :: entries, others) := by
  have hColon : readColon (behind ++ ':' :: (between ++ (value ++ rest))) =
      .ok (between ++ (value ++ rest)) := readColon_eq_ok_iff.mpr ⟨behind, hBehind, rfl⟩
  rw [readEntries, nextKey_item hFront hBefore]
  simp only [hKey _, hColon, hValue between rest hBetween hEnds, hOthers]

variable {Key : List Char → κ → Prop} {Value : List Char → α → Prop}

theorem EntriesText.readEntries_eq (hKey : ∀ text k, Key text k → ReadsKey readKey text k)
    (hValue : ∀ text v, Value text v → Reads readValue text v) {text : List Char}
    {entries : List (κ × α)} (h : EntriesText Key Value text entries) {steps : Nat}
    (hSteps : entries.length < steps) {first : Bool} {front : List Char}
    (hFront : IsFront first front) (rest : List Char) :
    readEntries readKey readValue steps first (front ++ (text ++ '\x7d' :: rest)) =
      .ok (entries, rest) := by
  -- The white space behind an entry is read with the comma or the brace after it, so it belongs to
  -- the front of the next step.
  induction h generalizing steps first front with
  | last h =>
    obtain ⟨steps, rfl⟩ : ∃ s, steps = s + 2 := ⟨steps - 2, by simp at hSteps; omega⟩
    cases h with
    | intro hBefore hk hBehind hBetween hv hAfter =>
      simp only [List.append_assoc, List.cons_append]
      exact readEntries_entry (steps + 1) hFront hBefore (hKey _ _ hk) hBehind hBetween
        (hValue _ _ hv) (endsNumber_append hAfter (endsNumber_brace rest))
        (readEntries_closed steps false hAfter rest)
  | @more _ others _ entries h _ ih =>
    obtain ⟨steps, rfl⟩ : ∃ s, steps = s + 1 := ⟨steps - 1, by simp at hSteps; omega⟩
    cases h with
    | @intro _ _ _ _ _ after _ _ hBefore hk hBehind hBetween hv hAfter =>
      have hLess : entries.length < steps := by simp at hSteps; omega
      have hComma : IsFront false (after ++ [',']) := ⟨after, hAfter, rfl⟩
      have hOthers := ih hLess hComma
      simp only [List.append_assoc, List.cons_append, List.nil_append] at hOthers ⊢
      exact readEntries_entry steps hFront hBefore (hKey _ _ hk) hBehind hBetween
        (hValue _ _ hv) (endsNumber_append hAfter (endsNumber_comma _)) hOthers

theorem EntriesText.length_le {text : List Char} {entries : List (κ × α)}
    (h : EntriesText Key Value text entries) : entries.length ≤ text.length := by
  have hEntry : ∀ {text : List Char} {entry : κ × α}, EntryText Key Value text entry →
      1 ≤ text.length := by
    intro text entry h
    cases h
    simp only [List.length_append, List.length_cons]
    omega
  induction h with
  | last h => exact hEntry h
  | more h _ ih =>
    have hFirst := hEntry h
    simp only [List.length_append, List.length_cons]
    omega

theorem InsideText.readEntries_eq (hKey : ∀ text k, Key text k → ReadsKey readKey text k)
    (hValue : ∀ text v, Value text v → Reads readValue text v) {text : List Char}
    {entries : List (κ × α)} (h : InsideText Key Value text entries) (rest : List Char) :
    readEntries readKey readValue ((text ++ '\x7d' :: rest).length + 1) true
      (text ++ '\x7d' :: rest) = .ok (entries, rest) := by
  cases h with
  | nothing hSpace => exact readEntries_closed _ true hSpace rest
  | entries h =>
    have hLength := h.length_le
    refine h.readEntries_eq hKey hValue ?_ (show IsFront true [] from rfl) rest
    simp only [List.length_append]
    omega

/-- What is read as entries is written according to the grammar, if keys and values are. -/
theorem exists_entriesText_of_readEntries
    (hKey : ∀ {text k rest}, readKey text = .ok (k, rest) →
      ∃ key, text = key ++ '"' :: rest ∧ Key key k)
    (hValue : ∀ {text v rest}, readValue text = .ok (v, rest) →
      ∃ space value, IsSpacing space ∧ text = space ++ (value ++ rest) ∧ Value value v)
    {steps : Nat} {first : Bool} {text rest : List Char} {entries : List (κ × α)}
    (h : readEntries readKey readValue steps first text = .ok (entries, rest)) :
    (∃ space, IsSpacing space ∧ entries = [] ∧ text = space ++ '\x7d' :: rest) ∨
      ∃ front inside, IsFront first front ∧ EntriesText Key Value inside entries ∧
        text = front ++ (inside ++ '\x7d' :: rest) := by
  induction steps generalizing first text entries with
  | zero => cases h
  | succ steps ih =>
    rw [readEntries] at h
    cases hNext : nextKey first text with
    | error failure =>
      rw [hNext] at h
      cases h
    | ok ahead =>
      rcases nextKey_cases hNext with
        ⟨space, behind, hSpace, hText, rfl⟩ | ⟨front, before, tail, hFront, hBefore, hText, rfl⟩
      · rw [hNext] at h
        cases h
        exact Or.inl ⟨space, hSpace, rfl, hText⟩
      · simp only [hNext] at h
        split at h
        · cases h
        rename_i hReadKey
        split at h
        · cases h
        rename_i hReadColon
        split at h
        · cases h
        rename_i hReadValue
        split at h
        · cases h
        rename_i hReadRest
        cases h
        obtain ⟨key, rfl, hk⟩ := hKey hReadKey
        obtain ⟨behind, hBehind, rfl⟩ := readColon_eq_ok_iff.mp hReadColon
        obtain ⟨between, value, hBetween, rfl, hv⟩ := hValue hReadValue
        right
        rcases ih hReadRest with
          ⟨after, hAfter, rfl, rfl⟩ | ⟨_, inside, ⟨after, hAfter, rfl⟩, hInside, rfl⟩
        · refine ⟨front, _, hFront, .last (.intro hBefore hk hBehind hBetween hv hAfter), ?_⟩
          simp only [hText, List.append_assoc, List.cons_append]
        · refine ⟨front, _, hFront,
            .more (.intro hBefore hk hBehind hBetween hv hAfter) hInside, ?_⟩
          simp only [hText, List.append_assoc, List.cons_append, List.nil_append]

end

/-! ### Maps -/

section
variable {readKey : Reader κ} {readValue : Reader α} {Key : List Char → κ → Prop}
  {Value : List Char → α → Prop}

theorem InsideText.readMap_eq (hKey : ∀ text k, Key text k → ReadsKey readKey text k)
    (hValue : ∀ text v, Value text v → Reads readValue text v) {space inside : List Char}
    {entries : List (κ × α)} (hSpace : IsSpacing space) (h : InsideText Key Value inside entries)
    (rest : List Char) :
    readMap readKey readValue (space ++ '\x7b' :: (inside ++ '\x7d' :: rest)) =
      .ok (entries, rest) := by
  rw [readMap, skipSpace_append_cons hSpace rfl]
  exact h.readEntries_eq hKey hValue rest

/-- A map is read from a text if an object stands at its front, with white space before it. -/
theorem readMap_eq_ok_iff
    (hKey : ∀ {text k rest}, readKey text = .ok (k, rest) ↔
      ∃ key, text = key ++ '"' :: rest ∧ Key key k)
    (hValue : ∀ {text v rest}, readValue text = .ok (v, rest) ↔
      ∃ space value, IsSpacing space ∧ text = space ++ (value ++ rest) ∧ Value value v ∧
        EndsNumber rest)
    {text rest : List Char} {entries : List (κ × α)} :
    readMap readKey readValue text = .ok (entries, rest) ↔
      ∃ space inside, IsSpacing space ∧ InsideText Key Value inside entries ∧
        text = space ++ '\x7b' :: (inside ++ '\x7d' :: rest) := by
  constructor
  · intro h
    unfold readMap at h
    split at h
    · rename_i hText
      obtain ⟨_, space, hSpace, rfl⟩ := skipSpace_eq_cons_iff.mp hText
      rcases exists_entriesText_of_readEntries hKey.mp
          (fun hRead => by
            obtain ⟨space, value, hSpace, hText, hv, _⟩ := hValue.mp hRead
            exact ⟨space, value, hSpace, hText, hv⟩) h with
        ⟨inside, hInside, rfl, rfl⟩ | ⟨front, inside, hFront, hInside, rfl⟩
      · exact ⟨space, inside, hSpace, .nothing hInside, rfl⟩
      · obtain rfl : front = [] := hFront
        exact ⟨space, inside, hSpace, .entries hInside, rfl⟩
    · cases h
  · rintro ⟨space, inside, hSpace, hInside, rfl⟩
    refine InsideText.readMap_eq (fun key k hk rest => hKey.mpr ⟨key, rfl, hk⟩) ?_ hSpace hInside rest
    intro value v hv between rest hBetween hEnds
    exact hValue.mpr ⟨between, value, hBetween, rfl, hv, hEnds⟩

end

end StreamAdmission.Json
