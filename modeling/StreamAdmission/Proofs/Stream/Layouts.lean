import StreamAdmission.Proofs.Json.Fields
import StreamAdmission.Proofs.Stream.RoundTrip

/-!
# Definitions in any order of their members

A definition may be written with the members of its three objects in any order, with unknown members
among them, and with or without what is unset or empty. All these texts decode to the definition. A
text that gives a known member twice, or leaves out one that is needed, is refused.
-/

namespace StreamAdmission

open Json

/-! ### How a definition is written -/

namespace Source

def fields (s : Source) : List Field := [
  ⟨"connectionString", fun v => v = .text s.connectionString, False⟩,
  ⟨"partitions", WritesOptional (fun n v => v = .number (Text.decimal n.toNat)) s.partitions,
    s.partitions = none⟩]

/-- The object holds the source and may hold other members too. -/
def Writes (s : Source) (v : Tree) : Prop :=
  ∃ members, v = .object members ∧ WritesFields s.fields members

end Source

namespace Destination

def fields (d : Destination) : List Field := [
  ⟨"connectionString", fun v => v = .text d.connectionString, d.connectionString = ""⟩,
  ⟨"keySerde", WritesOptional (fun serde v => v = .text serde) d.keySerde, d.keySerde = none⟩,
  ⟨"valueSerde", WritesOptional (fun serde v => v = .text serde) d.valueSerde,
    d.valueSerde = none⟩]

/-- The object holds the destination and may hold other members too. -/
def Writes (d : Destination) (v : Tree) : Prop :=
  ∃ members, v = .object members ∧ WritesFields d.fields members

end Destination

namespace Definition

/-- The object holds the metadata in some order. -/
def WritesMetadata (metadata : Table String String) (v : Tree) : Prop :=
  ∃ entries : List (String × String), entries.Perm metadata.entries ∧
    v = .object (entries.map fun entry => (entry.1, .text entry.2))

def fields (d : Definition) : List Field := [
  ⟨"name", fun v => v = .text d.name, False⟩,
  ⟨"source", d.source.Writes, False⟩,
  ⟨"destination", WritesOptional Destination.Writes d.destination, d.destination = none⟩,
  ⟨"metadata", WritesMetadata d.metadata, d.metadata = ∅⟩]

end Definition

/-- The members of a definition, of its source or of its destination are spoiled. -/
def Definition.IsSpoiled (members : List (String × Tree)) : Prop :=
  Json.IsSpoiled ["name", "source", "destination", "metadata"] ["name", "source"] members ∨
  (∃ inner, ("source", .object inner) ∈ members ∧
    Json.IsSpoiled ["connectionString", "partitions"] ["connectionString"] inner) ∨
  ∃ inner, ("destination", .object inner) ∈ members ∧
    Json.IsSpoiled ["connectionString", "keySerde", "valueSerde"] [] inner

/-! ### Reading what is written -/

theorem readsAs_writtenText (value : String) (v : Tree) (h : v = .text value) :
    v ≠ .null ∧ ReadsAs Written readString v value := by
  rw [h]
  exact ⟨nofun, Written.readsAs_text value⟩

namespace Source

/-- The source with no more than the fields of the given names. -/
def part (s : Source) (given : List String) : Source where
  connectionString := if "connectionString" ∈ given then s.connectionString else ""
  partitions := if "partitions" ∈ given then s.partitions else none

theorem readsAs_decimal (count : UInt32) (v : Tree) (h : v = .number (Text.decimal count.toNat)) :
    v ≠ .null ∧ ReadsAs Written readPartitions v count := by
  rw [h]
  refine ⟨nofun, readsAs_partitions_of_number ?_⟩
  intro hIn
  exact Written.readsAs_number "u32" (by decide) (by decide) hIn
    (.natural (isNatural_decimal count.toNat))

theorem readsFields (s : Source) : ReadsFields record s.fields s.part where
  names := rfl
  required := by
    intro m hm hRequired field hField hName
    simp only [record, fields, List.mem_cons, List.not_mem_nil, or_false] at hm hField
    rcases hm with rfl | rfl <;> rcases hField with rfl | rfl <;> simp_all
  reads := by
    intro field hField m hm v hv given
    simp only [fields, List.mem_cons, List.not_mem_nil, or_false] at hField
    rcases hField with rfl | rfl
    · obtain rfl := Option.some.inj hm
      have hRead := (readsAs_writtenText s.connectionString v hv).2.map fun value =>
        { s.part given with connectionString := value }
      simpa [part] using hRead
    · obtain rfl := Option.some.inj hm
      have hRead := (WritesOptional.readsAs hv readsAs_decimal).map fun value =>
        { s.part given with partitions := value }
      simpa [part] using hRead

theorem Writes.readsAs {s : Source} {v : Tree} (h : s.Writes v) :
    ReadsAs Written (record.read .empty) v s := by
  obtain ⟨members, rfl, hMembers⟩ := h
  have hRead := hMembers.readsAs s.readsFields
  have hEntered := fun field (hField : field ∈ s.fields) =>
    hMembers.mem_entered s.readsFields.names hField
  have hWhole : s.part (record.entered members) = s := by
    obtain ⟨connectionString, partitions⟩ := s
    simp only [part, Source.mk.injEq, ite_eq_left_iff]
    simp only [fields, List.forall_mem_cons] at hEntered
    exact ⟨fun h => (hEntered.1.resolve_left h).elim, fun h => (hEntered.2.1.resolve_left h).symm⟩
  rwa [hWhole] at hRead

end Source

namespace Destination

/-- The destination with no more than the fields of the given names. -/
def part (d : Destination) (given : List String) : Destination where
  connectionString := if "connectionString" ∈ given then d.connectionString else ""
  keySerde := if "keySerde" ∈ given then d.keySerde else none
  valueSerde := if "valueSerde" ∈ given then d.valueSerde else none

theorem readsFields (d : Destination) : ReadsFields record d.fields d.part where
  names := rfl
  required := by
    intro m hm hRequired
    simp only [record, List.mem_cons, List.not_mem_nil, or_false] at hm
    rcases hm with rfl | rfl | rfl <;> cases hRequired
  reads := by
    intro field hField m hm v hv given
    simp only [fields, List.mem_cons, List.not_mem_nil, or_false] at hField
    rcases hField with rfl | rfl | rfl
    · obtain rfl := Option.some.inj hm
      have hRead := (readsAs_writtenText d.connectionString v hv).2.map fun value =>
        { d.part given with connectionString := value }
      simpa [part] using hRead
    · obtain rfl := Option.some.inj hm
      have hRead := (WritesOptional.readsAs hv readsAs_writtenText).map fun value =>
        { d.part given with keySerde := value }
      simpa [part] using hRead
    · obtain rfl := Option.some.inj hm
      have hRead := (WritesOptional.readsAs hv readsAs_writtenText).map fun value =>
        { d.part given with valueSerde := value }
      simpa [part] using hRead

theorem Writes.readsAs (d : Destination) (v : Tree) (h : d.Writes v) :
    v ≠ .null ∧ ReadsAs Written (record.read .empty) v d := by
  obtain ⟨members, rfl, hMembers⟩ := h
  have hRead := hMembers.readsAs d.readsFields
  have hEntered := fun field (hField : field ∈ d.fields) =>
    hMembers.mem_entered d.readsFields.names hField
  have hWhole : d.part (record.entered members) = d := by
    obtain ⟨connectionString, keySerde, valueSerde⟩ := d
    simp only [part, Destination.mk.injEq, ite_eq_left_iff]
    simp only [fields, List.forall_mem_cons] at hEntered
    exact ⟨fun h => (hEntered.1.resolve_left h).symm, fun h => (hEntered.2.1.resolve_left h).symm,
      fun h => (hEntered.2.2.1.resolve_left h).symm⟩
  rw [hWhole] at hRead
  exact ⟨nofun, hRead⟩

end Destination

namespace Definition

/-- The definition with no more than the fields of the given names. -/
def part (d : Definition) (given : List String) : Definition where
  name := if "name" ∈ given then d.name else ""
  source := if "source" ∈ given then d.source else .empty
  destination := if "destination" ∈ given then d.destination else none
  metadata := if "metadata" ∈ given then d.metadata else ∅

theorem WritesMetadata.readsAs {metadata : Table String String} {v : Tree}
    (h : WritesMetadata metadata v) : ReadsAs Written readMetadata v metadata := by
  obtain ⟨entries, hPerm, rfl⟩ := h
  have hTable := (Written.readsAs_entries Written.readsAs_text entries).map Table.ofList
  rwa [Table.ofList_of_perm hPerm] at hTable

theorem readsFields (d : Definition) : ReadsFields record d.fields d.part where
  names := rfl
  required := by
    intro m hm hRequired field hField hName
    simp only [record, fields, List.mem_cons, List.not_mem_nil, or_false] at hm hField
    rcases hm with rfl | rfl | rfl | rfl <;> rcases hField with rfl | rfl | rfl | rfl <;> simp_all
  reads := by
    intro field hField m hm v hv given
    simp only [fields, List.mem_cons, List.not_mem_nil, or_false] at hField
    rcases hField with rfl | rfl | rfl | rfl
    · obtain rfl := Option.some.inj hm
      have hRead := (readsAs_writtenText d.name v hv).2.map fun value =>
        { d.part given with name := value }
      simpa [part] using hRead
    · obtain rfl := Option.some.inj hm
      have hRead := (Source.Writes.readsAs hv).map fun value =>
        { d.part given with source := value }
      simpa [part] using hRead
    · obtain rfl := Option.some.inj hm
      have hRead := (WritesOptional.readsAs hv Destination.Writes.readsAs).map fun value =>
        { d.part given with destination := value }
      simpa [part] using hRead
    · obtain rfl := Option.some.inj hm
      have hRead := (WritesMetadata.readsAs hv).map fun value =>
        { d.part given with metadata := value }
      simpa [part] using hRead

theorem readsAs_fields {d : Definition} {members : List (String × Tree)}
    (h : WritesFields d.fields members) :
    ReadsAs Written (record.read .empty) (.object members) d := by
  have hRead := h.readsAs d.readsFields
  have hEntered := fun field (hField : field ∈ d.fields) =>
    h.mem_entered d.readsFields.names hField
  have hWhole : d.part (record.entered members) = d := by
    obtain ⟨name, source, destination, metadata⟩ := d
    simp only [part, Definition.mk.injEq, ite_eq_left_iff]
    simp only [fields, List.forall_mem_cons] at hEntered
    exact ⟨fun h => (hEntered.1.resolve_left h).elim, fun h => (hEntered.2.1.resolve_left h).elim,
      fun h => (hEntered.2.2.1.resolve_left h).symm, fun h => (hEntered.2.2.2.1.resolve_left h).symm⟩
  rwa [hWhole] at hRead

end Definition

/-! ### Spoiled members -/

theorem Source.passes_members : ∀ m ∈ record.members, ∀ value, Passes (m.read value) := by
  have hPartitions : Passes readPartitions := by
    intro text count rest h
    unfold readPartitions at h
    split at h
    · cases h
    · rename_i hInteger
      cases h
      exact passes_readInteger "u32" (by decide) (by decide) _ _ _ hInteger
  rw [record, List.forall_mem_cons, List.forall_mem_singleton]
  constructor
  · exact fun s => passes_readString.map fun value => { s with connectionString := value }
  · exact fun s => hPartitions.optional.map fun value => { s with partitions := value }

theorem Destination.passes_members : ∀ m ∈ record.members, ∀ value, Passes (m.read value) := by
  rw [record, List.forall_mem_cons, List.forall_mem_cons, List.forall_mem_singleton]
  refine ⟨?_, ?_, ?_⟩
  · exact fun d => passes_readString.map fun value => { d with connectionString := value }
  · exact fun d => passes_readString.optional.map fun value => { d with keySerde := value }
  · exact fun d => passes_readString.optional.map fun value => { d with valueSerde := value }

namespace Definition

theorem passes_members : ∀ m ∈ record.members, ∀ value, Passes (m.read value) := by
  have hSource := Record.passes_read Source.passes_members .empty
  have hDestination := Record.passes_read Destination.passes_members .empty
  have hMetadata : Passes readMetadata := passes_readString.readMap.map Table.ofList
  rw [record, List.forall_mem_cons, List.forall_mem_cons, List.forall_mem_cons,
    List.forall_mem_singleton]
  refine ⟨?_, ?_, ?_, ?_⟩
  · exact fun d => passes_readString.map fun value => { d with name := value }
  · exact fun d => hSource.map fun value => { d with source := value }
  · exact fun d => hDestination.optional.map fun value => { d with destination := value }
  · exact fun d => hMetadata.map fun value => { d with metadata := value }

theorem not_isSpoiled_of_decode {text : String} {members : List (String × Tree)} {d : Definition}
    (hText : IsTextOf text (.object members)) (h : decode text = .ok d) :
    ¬ Definition.IsSpoiled members := by
  have hTakes := Takes.of_decode (Record.passes_read passes_members .empty) hText h
  have hAccepts := Record.accepts_of_takes passes_members hTakes
  rintro (hTop | ⟨inner, hMember, hInner⟩ | ⟨inner, hMember, hInner⟩)
  · exact hAccepts.not_isSpoiled rfl rfl hTop
  · obtain ⟨d, hMapped⟩ := hAccepts.takes hMember rfl
    have hSource := Takes.of_map (fun value => { d with source := value }) hMapped
    exact (Record.accepts_of_takes Source.passes_members hSource).not_isSpoiled rfl rfl hInner
  · obtain ⟨d, hMapped⟩ := hAccepts.takes hMember rfl
    have hOptional := Takes.of_map (fun value => { d with destination := value }) hMapped
    have hDestination := hOptional.of_optional nofun
    exact (Record.accepts_of_takes Destination.passes_members hDestination).not_isSpoiled rfl rfl
      hInner

/-- A text that writes a definition decodes to it, whatever the order of the members in its objects,
the other members among them and the white space between the tokens. A text with a known member given
twice, or without one that is needed, is refused. -/
theorem decode_any_order (text : String) (members : List (String × Tree))
    (h : IsTextOf text (.object members)) :
    (∀ d : Definition, WritesFields d.fields members → decode text = .ok d) ∧
    (Definition.IsSpoiled members → ∃ e, decode text = .error e) := by
  constructor
  · intro d hWrites
    obtain ⟨before, inside, after, hBefore, hInside, hAfter, hText⟩ := h
    exact (readsAs_fields hWrites).decode_eq_of_inside hBefore hInside hAfter hText
  · intro hSpoiled
    cases hDecode : decode text with
    | error e => exact ⟨e, rfl⟩
    | ok d => exact absurd hSpoiled (not_isSpoiled_of_decode h hDecode)

/-- The name comes last and has an escape in its key, the metadata are not in order, the partitions are
null and nobody knows the first member. -/
def scattered : String :=
  " \x7b\"zone\":[-0.5e7, \x7b\x7d],\"metadata\":\x7b\"b\":\"2\",\"a\":\"1\"\x7d," ++
    "\"source\":\x7b\"partitions\":null,\"connectionString\":\"k\"\x7d,\"n\\u0061me\":\"s\"\x7d"

def scatteredMembers : List (String × Tree) := [
  ("zone", .list [.number ['-', '0', '.', '5', 'e', '7'], .object []]),
  ("metadata", .object [("b", .text "2"), ("a", .text "1")]),
  ("source", .object [("partitions", .null), ("connectionString", .text "k")]),
  ("name", .text "s")]

def ofScattered : Definition where
  name := "s"
  source := ⟨"k", none⟩
  destination := none
  metadata := Table.ofList [("a", "1"), ("b", "2")]

theorem entryText_dense {key text : List Char} {name : String} {v : Tree} (hKey : StringText key name)
    (h : Written text v) :
    EntryText StringText Written ('"' :: (key ++ '"' :: ':' :: text)) (name, v) := by
  have hEntry := EntryText.intro isSpacing_nil hKey isSpacing_nil isSpacing_nil h isSpacing_nil
  rwa [List.append_nil] at hEntry

theorem isTextOf_scattered : IsTextOf scattered (.object scatteredMembers) := by
  have hEscaped : StringText _ "name" :=
    show CharsText _ ['n', Char.ofNat 0x61, 'm', 'e'] from
      .cons (.plain (by decide) (by decide) (by decide))
        (.cons (.unicode (show hexQuad? '0' '0' '6' '1' = some 0x61 from rfl) rfl rfl)
          (.cons (.plain (by decide) (by decide) (by decide))
            (.cons (.plain (by decide) (by decide) (by decide)) .nil)))
  have hText : ∀ value : String, value.toList.all isPlainChar = true → Written _ (.text value) :=
    fun value h => .text (stringText_plain value h)
  have hDigit : ∀ digit, isDigit digit = true → IsDigits [digit] := fun digit h =>
    ⟨List.cons_ne_nil _ _, List.forall_mem_singleton.mpr h⟩
  have hNumber : Written _ (.number (['-'] ++ (['0'] ++ (['.', '5'] ++ ['e', '7'])))) :=
    .number (.intro (Or.inr rfl) ⟨hDigit '0' rfl, fun _ => rfl⟩ (.some (hDigit '5' rfl))
      (.some (Or.inl rfl) (Or.inl rfl) (hDigit '7' rfl)))
  have hZone : Written _ (.list [.number ['-', '0', '.', '5', 'e', '7'], .object []]) :=
    .list (.items (.more isSpacing_nil hNumber isSpacing_nil
      (.last isSpacing_singleton (.object (.nothing isSpacing_nil)) isSpacing_nil)))
  have hMetadata : Written _ (.object [("b", .text "2"), ("a", .text "1")]) :=
    .object (.entries
      (.more (entryText_dense (stringText_plain "b" (by decide)) (hText "2" (by decide)))
        (.last (entryText_dense (stringText_plain "a" (by decide)) (hText "1" (by decide))))))
  have hSource : Written _ (.object [("partitions", .null), ("connectionString", .text "k")]) :=
    .object (.entries
      (.more (entryText_dense (stringText_plain "partitions" (by decide)) .null)
        (.last (entryText_dense (stringText_plain "connectionString" (by decide))
          (hText "k" (by decide))))))
  have hAll : Written _ (.object scatteredMembers) :=
    .object (.entries
      (.more (entryText_dense (stringText_plain "zone" (by decide)) hZone)
        (.more (entryText_dense (stringText_plain "metadata" (by decide)) hMetadata)
          (.more (entryText_dense (stringText_plain "source" (by decide)) hSource)
            (.last (entryText_dense hEscaped (hText "s" (by decide))))))))
  exact ⟨[' '], _, [], isSpacing_singleton, hAll, isSpacing_nil, by decide +kernel⟩

theorem writesFields_scattered : WritesFields ofScattered.fields scatteredMembers where
  once := by
    simp only [Definition.fields, List.forall_mem_cons]
    exact ⟨by decide, by decide, by decide, by decide, nofun⟩
  writes := by
    simp only [Definition.fields, List.forall_mem_cons]
    refine ⟨?_, ?_, ?_, ?_, nofun⟩
    · intro v hv
      obtain rfl : v = .text "s" := by simpa [scatteredMembers] using hv
      rfl
    · intro v hv
      obtain rfl : v = .object _ := by simpa [scatteredMembers] using hv
      refine ⟨_, rfl, ?_, ?_, ?_⟩ <;> simp [Source.fields, ofScattered, WritesOptional]
    · intro v hv
      simp [scatteredMembers] at hv
    · intro v hv
      obtain rfl : v = .object _ := by simpa [scatteredMembers] using hv
      exact ⟨[("b", "2"), ("a", "1")], List.Perm.swap _ _ _, rfl⟩
  given := by
    simp only [Definition.fields, List.forall_mem_cons]
    exact ⟨Or.inl (by decide), Or.inl (by decide), Or.inr rfl, Or.inl (by decide), nofun⟩

theorem isTextOf_twice :
    IsTextOf "\x7b\"name\":null,\"name\":null\x7d" (.object [("name", .null), ("name", .null)]) := by
  have hName := entryText_dense (stringText_plain "name" (by decide)) .null
  exact ⟨[], _, [], isSpacing_nil, .object (.entries (.more hName (.last hName))), isSpacing_nil,
    by decide⟩

theorem decode_any_order_scattered :
    (IsTextOf scattered (.object scatteredMembers) ∧
      WritesFields ofScattered.fields scatteredMembers ∧ decode scattered = .ok ofScattered) ∧
    IsTextOf "\x7b\"name\":null,\"name\":null\x7d" (.object [("name", .null), ("name", .null)]) ∧
      ∃ e, decode "\x7b\"name\":null,\"name\":null\x7d" = .error e := by
  constructor
  · exact ⟨isTextOf_scattered, writesFields_scattered,
      (decode_any_order _ _ isTextOf_scattered).1 ofScattered writesFields_scattered⟩
  · refine ⟨isTextOf_twice, (decode_any_order _ _ isTextOf_twice).2 ?_⟩
    exact Or.inl (Or.inl ⟨"name", by decide, by decide⟩)

end Definition

end StreamAdmission
