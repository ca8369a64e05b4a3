import StreamAdmission.Proofs.Json.Layout
import StreamAdmission.Proofs.Table
import StreamAdmission.Stream.Definition

/-!
# Definitions are read back

A definition that is written, on one line or over several, decodes to itself. The order in which its
metadata are written does not matter.
-/

namespace StreamAdmission

open Json

namespace Source

/-- A count that is read as a number within its range is read as a count of partitions. -/
theorem readsAs_partitions_of_number {α : Type} {Value : List Char → α → Prop} {v : α}
    {count : UInt32}
    (h : 0 ≤ (count.toNat : Int) ∧ (count.toNat : Int) ≤ 0xffffffff →
      ReadsAs Value (readInteger "u32" 0 0xffffffff) v count.toNat) :
    ReadsAs Value readPartitions v count := by
  intro text hText space rest hSpace hEnds
  have hHigh : (count.toNat : Int) ≤ 0xffffffff :=
    Int.ofNat_le.mpr (Nat.le_of_lt_succ count.toNat_lt)
  have hRead := h ⟨Int.natCast_nonneg _, hHigh⟩ text hText space rest hSpace hEnds
  simp only [readPartitions, hRead, Int.toNat_natCast, UInt32.ofNat_toNat]

theorem readsAs_partitions (count : UInt32) :
    ReadsAs Spells readPartitions (.number count.toNat) count :=
  readsAs_partitions_of_number (readsAs_number "u32" (by decide) (by decide))

theorem readsAs_document (s : Source) : ReadsAs Spells (record.read .empty) s.document s := by
  obtain ⟨connectionString, partitions⟩ := s
  apply Record.Enters.readsAs
  refine .known rfl List.not_mem_nil
    ((readsAs_text connectionString).map fun value => Source.mk value none) ?_
  cases partitions with
  | none => exact .nothing rfl
  | some count =>
    exact .known rfl (by decide)
      ((readsAs_partitions count).optional.map fun value => Source.mk connectionString value)
      (.nothing rfl)

end Source

namespace Destination

theorem readsAs_document (d : Destination) : ReadsAs Spells (record.read .empty) d.document d := by
  obtain ⟨connectionString, keySerde, valueSerde⟩ := d
  have hValueSerde : ∀ (given : List String) (key : Option String), "valueSerde" ∉ given →
      record.Enters Spells given ⟨connectionString, key, none⟩
        (valueSerde.map fun serde => ("valueSerde", Document.text serde)).toList
        ⟨connectionString, key, valueSerde⟩ := by
    intro given key hFresh
    cases valueSerde with
    | none => exact .nothing rfl
    | some serde =>
      exact .known rfl hFresh
        ((readsAs_text serde).optional.map fun value => Destination.mk connectionString key value)
        (.nothing rfl)
  apply Record.Enters.readsAs
  refine .known rfl List.not_mem_nil
    ((readsAs_text connectionString).map fun value => Destination.mk value none none) ?_
  cases keySerde with
  | none => exact hValueSerde _ none (by decide)
  | some serde =>
    exact .known rfl (by decide)
      ((readsAs_text serde).optional.map fun value => Destination.mk connectionString value none)
      (hValueSerde _ (some serde) (by decide))

end Destination

namespace Definition

theorem readsAs_metadata {metadata : List (String × String)} {table : Table String String}
    (h : metadata.Perm table.entries) :
    ReadsAs Spells readMetadata
      (.object (metadata.map fun entry => (entry.1, .text entry.2))) table := by
  have hTable := (readsAs_entries readsAs_text metadata).map Table.ofList
  rwa [Table.ofList_of_perm h] at hTable

theorem readsAs_document (d : Definition) {metadata : List (String × String)}
    (h : metadata.Perm d.metadata.entries) :
    ReadsAs Spells (record.read .empty) (d.documentWith metadata) d := by
  obtain ⟨name, source, destination, table⟩ := d
  have hMetadata : ∀ (given : List String) (destination : Option Destination),
      "metadata" ∉ given → record.missing? ("metadata" :: given) = none →
      record.Enters Spells given ⟨name, source, destination, ∅⟩
        [("metadata", .object (metadata.map fun entry => (entry.1, .text entry.2)))]
        ⟨name, source, destination, table⟩ := by
    intro given destination hFresh hComplete
    exact .known rfl hFresh
      ((readsAs_metadata h).map fun value => Definition.mk name source destination value)
      (.nothing hComplete)
  -- The members are entered in the order in which they are written; one that is left out keeps the
  -- value of an empty definition.
  apply Record.Enters.readsAs
  refine .known rfl List.not_mem_nil
    ((readsAs_text name).map fun value => Definition.mk value .empty none ∅) ?_
  refine .known rfl (by decide)
    (source.readsAs_document.map fun value => Definition.mk name value none ∅) ?_
  cases destination with
  | none => exact hMetadata _ none (by decide) rfl
  | some destination =>
    exact .known rfl (by decide)
      (destination.readsAs_document.optional.map fun value => Definition.mk name source value ∅)
      (hMetadata _ (some destination) (by decide) rfl)

/-- Both layouts of a definition decode to it, in whatever order its metadata are written. -/
theorem decode_layouts (d : Definition) (metadata : List (String × String))
    (h : metadata.Perm d.metadata.entries) :
    decode (d.documentWith metadata).compact = .ok d ∧
      decode (d.documentWith metadata).pretty = .ok d := by
  have hReads := d.readsAs_document h
  refine ⟨hReads.decode_eq ?_, hReads.decode_eq ?_⟩
  · rw [Document.compact, String.toList_ofList]
    exact spells_compactChars _
  · rw [Document.pretty, String.toList_ofList]
    exact spells_prettyChars 0 _

/-- A definition with an empty destination, a text in quotes as its name and two metadata. -/
def quoted : Definition where
  name := "\"a\\\n\""
  source := ⟨"", some 0⟩
  destination := some ⟨"", none, some "é"⟩
  metadata := Table.ofList [("b", "\x7b\x7d"), ("a", "\x01")]

theorem decode_layouts_quoted :
    [("b", "\x7b\x7d"), ("a", "\x01")].Perm quoted.metadata.entries ∧
      decode (quoted.documentWith [("b", "\x7b\x7d"), ("a", "\x01")]).compact = .ok quoted ∧
      decode (quoted.documentWith [("b", "\x7b\x7d"), ("a", "\x01")]).pretty = .ok quoted := by
  have hPerm : [("b", "\x7b\x7d"), ("a", "\x01")].Perm quoted.metadata.entries :=
    List.Perm.swap _ _ _
  exact ⟨hPerm, decode_layouts quoted _ hPerm⟩

end Definition

end StreamAdmission
