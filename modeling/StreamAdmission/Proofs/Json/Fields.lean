import Mathlib.Data.List.Nodup
import StreamAdmission.Proofs.Json.Members

/-!
# Records from their fields

A record is written as an object by writing its fields in any order, with other members between them;
a field may be left out if its value is the one that an absent field has. Reading enters the fields in
the order of the text. What is read after some of them depends only on which ones these are, and in the
end it is the record.
-/

namespace StreamAdmission.Json

variable {α σ : Type}

/-- A field with its value: how it may be written and whether it may be left out. -/
structure Field where
  name : String
  writes : Tree → Prop
  omissible : Prop

/-- The members give each field at most once and as it is written, and leave out no other field than
one that may be. Members of other names may hold anything. -/
structure WritesFields (fields : List Field) (members : List (String × Tree)) : Prop where
  once : ∀ field ∈ fields, (members.map Prod.fst).count field.name ≤ 1
  writes : ∀ field ∈ fields, ∀ v, (field.name, v) ∈ members → field.writes v
  given : ∀ field ∈ fields, field.name ∈ members.map Prod.fst ∨ field.omissible

/-- An unset value is written as `null`. -/
def WritesOptional (writes : α → Tree → Prop) : Option α → Tree → Prop
  | none, v => v = .null
  | some a, v => writes a v

/-! ### Readers of written values -/

theorem Written.readsAs_text (value : String) : ReadsAs Written readString (.text value) value := by
  apply ReadsAs.of_quotes
  intro text hText
  cases hText with
  | text h => exact ⟨_, rfl, h.readsKey⟩

theorem Written.readsAs_number (expected : String) {low high z : Int} {digits : List Char}
    (hLow : minInteger ≤ low) (hHigh : high ≤ maxNatural) (hIn : low ≤ z ∧ z ≤ high)
    (h : IsInteger digits z) : ReadsAs Written (readInteger expected low high) (.number digits) z := by
  apply ReadsAs.of_digits expected hLow hHigh hIn
  intro text hText
  cases hText
  exact h

theorem Written.isObject {text : List Char} {members : List (String × Tree)}
    (h : Written text (.object members)) : IsObject StringText Written members text := by
  cases h with
  | object h => exact ⟨_, rfl, h⟩

theorem Written.readsAs_null (read : Reader α) : ReadsAs Written (readOptional read) .null none := by
  intro text hText space rest hSpace _
  cases hText
  have hNull : skipSpace (space ++ (['n', 'u', 'l', 'l'] ++ rest)) = 'n' :: 'u' :: 'l' :: 'l' :: rest :=
    skipSpace_append_cons hSpace rfl _
  simp only [readOptional, hNull, readWord, if_true]

theorem WritesOptional.readsAs {writes : α → Tree → Prop} {read : Reader α} {value : Option α}
    {v : Tree} (h : WritesOptional writes value v)
    (hSome : ∀ a v, writes a v → v ≠ .null ∧ ReadsAs Written read v a) :
    ReadsAs Written (readOptional read) v value := by
  cases value with
  | none =>
    rw [show v = .null from h]
    exact Written.readsAs_null read
  | some a =>
    obtain ⟨hNull, hRead⟩ := hSome a v h
    refine hRead.optional_of_starts ?_
    intro text hText
    obtain ⟨c, others, hCons, hc, -, hOther⟩ := hText.exists_cons
    exact ⟨c, others, hCons, hc, hOther hNull⟩

theorem Written.readsAs_entries {readValue : Reader α} {value : α → Tree}
    (h : ∀ a, ReadsAs Written readValue (value a) a) (entries : List (String × α)) :
    ReadsAs Written (readMap readStringRest readValue)
      (.object (entries.map fun entry => (entry.1, value entry.2))) entries :=
  ReadsAs.of_map (fun _ _ hKey => hKey.readsKey) h fun _ hText => hText.isObject

theorem Record.Enters.readsAs_written {record : Record σ} {start result : σ}
    {members : List (String × Tree)} (h : record.Enters Written [] start members result) :
    ReadsAs Written (record.read start) (.object members) result :=
  h.readsAs_of_object (fun _ _ hKey => hKey.readsKey) fun _ hText => hText.isObject

theorem Written.skips (v : Tree) : Skips Written v := by
  intro text hText space rest hSpace hEnds
  rw [skipValue, hText.isPassed [] space rest hSpace hEnds, skipRestOf_nil]

/-! ### Records read part by part -/

namespace Record

/-- The names of the known members, the last one first. -/
def entered (record : Record σ) (members : List (String × Tree)) : List String :=
  ((members.map Prod.fst).filter fun name => (record.member? name).isSome).reverse

variable {record : Record σ}

theorem entered_cons_known {name : String} {v : Tree} {members : List (String × Tree)}
    {m : Member σ} (h : record.member? name = some m) :
    record.entered ((name, v) :: members) = record.entered members ++ [name] := by
  simp [entered, h]

theorem entered_cons_unknown {name : String} {v : Tree} {members : List (String × Tree)}
    (h : record.member? name = none) :
    record.entered ((name, v) :: members) = record.entered members := by
  simp [entered, h]

/-- If reading a known member takes one part of a record to the next, reading all members takes it to
the part that has all of them. -/
theorem enters_part {part : List String → σ} {members : List (String × Tree)}
    (hReads : ∀ name v m, (name, v) ∈ members → record.member? name = some m →
      ∀ given, ReadsAs Written (m.read (part given)) v (part (name :: given)))
    {given : List String} (hOnce : (record.entered members ++ given).Nodup)
    (hComplete : record.missing? (record.entered members ++ given) = none) :
    record.Enters Written given (part given) members (part (record.entered members ++ given)) := by
  induction members generalizing given with
  | nil => exact .nothing hComplete
  | cons member members ih =>
    obtain ⟨name, v⟩ := member
    have hOthers : ∀ name v m, (name, v) ∈ members → record.member? name = some m →
        ∀ given, ReadsAs Written (m.read (part given)) v (part (name :: given)) :=
      fun name v m hMember => hReads name v m (List.mem_cons_of_mem _ hMember)
    cases hFound : record.member? name with
    | none =>
      rw [entered_cons_unknown hFound] at hOnce hComplete ⊢
      exact .unknown hFound (Written.skips v) (ih hOthers hOnce hComplete)
    | some m =>
      rw [entered_cons_known hFound, List.append_assoc, List.singleton_append] at hOnce hComplete ⊢
      have hFresh : name ∉ given := (List.nodup_cons.mp (List.nodup_append.mp hOnce).2.1).1
      exact .known hFound hFresh (hReads name v m List.mem_cons_self hFound given)
        (ih hOthers hOnce hComplete)

theorem mem_entered_iff {members : List (String × Tree)} {name : String} :
    name ∈ record.entered members ↔
      name ∈ members.map Prod.fst ∧ (record.member? name).isSome = true := by
  rw [entered, List.mem_reverse, List.mem_filter]

end Record

/-- Reading a field takes one part of the record to the next, and a field that has to be given may not
be left out. -/
structure ReadsFields (record : Record σ) (fields : List Field) (part : List String → σ) : Prop where
  names : record.members.map (·.name) = fields.map (·.name)
  required : ∀ m ∈ record.members, m.required = true →
    ∀ field ∈ fields, field.name = m.name → ¬ field.omissible
  reads : ∀ field ∈ fields, ∀ m, record.member? field.name = some m → ∀ v, field.writes v →
    ∀ given, ReadsAs Written (m.read (part given)) v (part (field.name :: given))

namespace WritesFields

variable {record : Record σ} {fields : List Field} {part : List String → σ}
  {members : List (String × Tree)}

theorem exists_field (hNames : record.members.map (·.name) = fields.map (·.name)) {name : String}
    {m : Member σ} (h : record.member? name = some m) : ∃ field ∈ fields, field.name = name := by
  obtain ⟨hm, rfl⟩ := Record.member?_mem h
  have hName : m.name ∈ fields.map (·.name) := hNames ▸ List.mem_map.mpr ⟨m, hm, rfl⟩
  exact List.mem_map.mp hName

theorem isSome_member? (hNames : record.members.map (·.name) = fields.map (·.name)) {field : Field}
    (h : field ∈ fields) : (record.member? field.name).isSome = true := by
  have hName : field.name ∈ record.members.map (·.name) := hNames ▸ List.mem_map.mpr ⟨field, h, rfl⟩
  obtain ⟨m, hm, hSame⟩ := List.mem_map.mp hName
  rw [Record.member?, List.find?_isSome]
  exact ⟨m, hm, by simpa using hSame⟩

theorem nodup_entered (hNames : record.members.map (·.name) = fields.map (·.name))
    (h : WritesFields fields members) : (record.entered members).Nodup := by
  rw [Record.entered, List.nodup_iff_count_le_one]
  intro name
  rw [List.count_reverse]
  by_cases hKnown : (record.member? name).isSome = true
  · obtain ⟨m, hFound⟩ := Option.isSome_iff_exists.mp hKnown
    obtain ⟨field, hField, rfl⟩ := exists_field hNames hFound
    exact Nat.le_trans (List.filter_sublist.count_le _) (h.once field hField)
  · have hAbsent : name ∉ (members.map Prod.fst).filter fun name => (record.member? name).isSome :=
      fun hMem => hKnown (List.mem_filter.mp hMem).2
    rw [List.count_eq_zero.mpr hAbsent]
    exact Nat.zero_le 1

theorem mem_entered (hNames : record.members.map (·.name) = fields.map (·.name))
    (h : WritesFields fields members) {field : Field} (hField : field ∈ fields) :
    field.name ∈ record.entered members ∨ field.omissible :=
  (h.given field hField).imp_left fun hMember =>
    Record.mem_entered_iff.mpr ⟨hMember, isSome_member? hNames hField⟩

theorem readsAs (h : WritesFields fields members) (hReads : ReadsFields record fields part) :
    ReadsAs Written (record.read (part [])) (.object members)
      (part (record.entered members)) := by
  have hComplete : record.missing? (record.entered members) = none := by
    refine List.find?_eq_none.mpr ?_
    intro m hm
    cases hRequired : m.required with
    | false => simp
    | true =>
      have hName : m.name ∈ fields.map (·.name) :=
        hReads.names ▸ List.mem_map.mpr ⟨m, hm, rfl⟩
      obtain ⟨field, hField, hSame⟩ := List.mem_map.mp hName
      have hEntered := (h.mem_entered hReads.names hField).resolve_right
        (hReads.required m hm hRequired field hField hSame)
      rw [hSame] at hEntered
      simpa using hEntered
  have hPart : ∀ name v m, (name, v) ∈ members → record.member? name = some m →
      ∀ given, ReadsAs Written (m.read (part given)) v (part (name :: given)) := by
    intro name v m hMember hFound
    obtain ⟨field, hField, rfl⟩ := exists_field hReads.names hFound
    exact hReads.reads field hField m hFound v (h.writes field hField v hMember)
  rw [← List.append_nil (record.entered members)] at hComplete ⊢
  apply Record.Enters.readsAs_written
  refine Record.enters_part hPart ?_ hComplete
  rw [List.append_nil]
  exact h.nodup_entered hReads.names

end WritesFields

end StreamAdmission.Json
