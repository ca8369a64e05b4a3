import StreamAdmission.Proofs.Json.Integer
import StreamAdmission.Proofs.Json.Quoted
import StreamAdmission.Proofs.Json.Record

/-!
# Layouts of a document

A document may be laid out with any white space between its tokens. The layout on one line and the
one over several lines are two of these.
-/

namespace StreamAdmission.Json

/-- The text holds the document and starts with its first token. -/
inductive Spells : List Char → Document → Prop where
  | text (value : String) : Spells (encodeString value) (.text value)
  | number (value : Nat) : Spells (Text.decimal value) (.number value)
  | object {inside : List Char} {members : List (String × Document)}
    (h : InsideText IsEncoded Spells inside members) :
    Spells ('\x7b' :: (inside ++ ['\x7d'])) (.object members)

theorem isSpacing_newLine (level : Nat) : IsSpacing (Document.newLine level) := by
  rw [Document.newLine, isSpacing_cons_iff]
  refine ⟨rfl, fun c hc => ?_⟩
  exact Or.inl (List.eq_of_mem_replicate hc)

theorem isSpacing_singleton : IsSpacing [' '] := fun _ hc => Or.inl (List.mem_singleton.mp hc)

theorem entryText_encodeString {before between value after : List Char} (name : String)
    {d : Document} (hBefore : IsSpacing before) (hBetween : IsSpacing between)
    (hValue : Spells value d) (hAfter : IsSpacing after) :
    EntryText IsEncoded Spells
      (before ++ encodeString name ++ ':' :: (between ++ (value ++ after))) (name, d) := by
  have hName : IsEncoded (name.toList.flatMap encodeChar) name := rfl
  have hEntry := EntryText.intro hBefore hName isSpacing_nil hBetween hValue hAfter
  simpa only [encodeString, List.append_assoc, List.cons_append, List.nil_append] using hEntry

theorem entriesText_of_cons {inside : List Char} {member : String × Document}
    {rest : List (String × Document)}
    (h : InsideText IsEncoded Spells inside (member :: rest)) :
    EntriesText IsEncoded Spells inside (member :: rest) := by
  cases h with
  | entries h => exact h

mutual

theorem spells_compactChars : ∀ d : Document, Spells d.compactChars d
  | .text value => .text value
  | .number value => .number value
  | .object members => by
    obtain ⟨inside, hText, hInside⟩ := exists_insideText_compactMembers members
    rw [Document.compactChars, hText]
    exact .object hInside

theorem exists_insideText_compactMembers : ∀ members : List (String × Document), ∃ inside,
    Document.compactMembers members = inside ++ ['\x7d'] ∧
      InsideText IsEncoded Spells inside members
  | [] => ⟨[], rfl, .nothing isSpacing_nil⟩
  | [(name, d)] => by
    refine ⟨_, ?_, .entries (.last (entryText_encodeString name isSpacing_nil isSpacing_nil
      (spells_compactChars d) isSpacing_nil))⟩
    simp [Document.compactMembers]
  | (name, d) :: second :: others => by
    obtain ⟨inside, hText, hInside⟩ := exists_insideText_compactMembers (second :: others)
    refine ⟨_, ?_, .entries (.more (entryText_encodeString name isSpacing_nil isSpacing_nil
      (spells_compactChars d) isSpacing_nil) (entriesText_of_cons hInside))⟩
    simp [Document.compactMembers, hText]

end

mutual

theorem spells_prettyChars (level : Nat) : ∀ d : Document, Spells (d.prettyChars level) d
  | .text value => .text value
  | .number value => .number value
  | .object [] => .object (.nothing isSpacing_nil)
  | .object (member :: rest) => by
    obtain ⟨inside, hText, hInside⟩ := exists_insideText_prettyMembers (level + 1) (member :: rest)
    rw [Document.prettyChars, hText]
    exact .object hInside

theorem exists_insideText_prettyMembers (level : Nat) : ∀ members : List (String × Document),
    ∃ inside, Document.prettyMembers level members = inside ++ ['\x7d'] ∧
      InsideText IsEncoded Spells inside members
  | [] => ⟨_, rfl, .nothing (isSpacing_newLine (level - 1))⟩
  | [(name, d)] => by
    refine ⟨_, ?_, .entries (.last (entryText_encodeString name (isSpacing_newLine level)
      isSpacing_singleton (spells_prettyChars level d) (isSpacing_newLine (level - 1))))⟩
    simp [Document.prettyMembers]
  | (name, d) :: second :: others => by
    obtain ⟨inside, hText, hInside⟩ := exists_insideText_prettyMembers level (second :: others)
    refine ⟨_, ?_, .entries (.more (entryText_encodeString name (isSpacing_newLine level)
      isSpacing_singleton (spells_prettyChars level d) isSpacing_nil)
      (entriesText_of_cons hInside))⟩
    simp [Document.prettyMembers, hText]

end

/-! ### Reading a layout -/

theorem IsEncoded.readsKey {text : List Char} {value : String} (h : IsEncoded text value) :
    ReadsKey readStringRest text value :=
  h.readStringRest_eq

theorem readsAs_text (value : String) : ReadsAs Spells readString (.text value) value := by
  apply ReadsAs.of_quotes
  rintro _ ⟨⟩
  exact ⟨_, rfl, IsEncoded.readsKey rfl⟩

theorem readsAs_number (expected : String) {low high : Int} {value : Nat}
    (hLow : minInteger ≤ low) (hHigh : high ≤ maxNatural) (hIn : low ≤ value ∧ value ≤ high) :
    ReadsAs Spells (readInteger expected low high) (.number value) value := by
  apply ReadsAs.of_digits expected hLow hHigh hIn
  rintro _ ⟨⟩
  exact .natural (isNatural_decimal value)

theorem Spells.isObject {text : List Char} {members : List (String × Document)}
    (h : Spells text (.object members)) : IsObject IsEncoded Spells members text := by
  cases h with
  | object h => exact ⟨_, rfl, h⟩

/-- A document does not start like `null`. -/
theorem Spells.exists_cons {text : List Char} {d : Document} (h : Spells text d) :
    ∃ c others, text = c :: others ∧ isSpace c = false ∧ c ≠ 'n' := by
  cases h with
  | text value => exact ⟨'"', _, rfl, rfl, by decide⟩
  | number value =>
    obtain ⟨c, others, hText, hDigit⟩ := (isNatural_decimal value).exists_cons
    refine ⟨c, others, hText, isSpace_of_starts (Or.inr hDigit), ?_⟩
    rintro rfl
    cases hDigit
  | object h => exact ⟨'\x7b', _, rfl, rfl, by decide⟩

theorem ReadsAs.optional {α : Type} {read : Reader α} {d : Document} {a : α}
    (h : ReadsAs Spells read d a) : ReadsAs Spells (readOptional read) d (some a) :=
  h.optional_of_starts fun _ hText => hText.exists_cons

theorem readsAs_entries {α : Type} {readValue : Reader α} {value : α → Document}
    (h : ∀ a, ReadsAs Spells readValue (value a) a) (entries : List (String × α)) :
    ReadsAs Spells (readMap readStringRest readValue)
      (.object (entries.map fun entry => (entry.1, value entry.2))) entries :=
  ReadsAs.of_map (fun _ _ hKey => hKey.readsKey) h fun _ hText => hText.isObject

theorem Record.Enters.readsAs {σ : Type} {record : Record σ} {start result : σ}
    {members : List (String × Document)} (h : record.Enters Spells [] start members result) :
    ReadsAs Spells (record.read start) (.object members) result :=
  h.readsAs_of_object (fun _ _ hKey => hKey.readsKey) fun _ hText => hText.isObject

/-- A text that holds a document is decoded as the document is read. -/
theorem ReadsAs.decode_eq {α : Type} {read : Reader α} {d : Document} {a : α}
    (h : ReadsAs Spells read d a) {text : String} (hText : Spells text.toList d) :
    decode read text = .ok a :=
  h.decode_eq_of_inside isSpacing_nil hText isSpacing_nil (by simp)

end StreamAdmission.Json
