import StreamAdmission.Proofs.Outcome
import StreamAdmission.Proofs.Table
import StreamAdmission.Proofs.Text.Numeral
import StreamAdmission.Settings.Properties

/-!
# Settings told from properties

The settings that a table of properties gives, entry by entry: each option from the property of its
name, the timeout from the numeral there, and a property for the client from the one that is marked
so. The mark is taken off once, and nothing but these properties matters.
-/

namespace StreamAdmission.Settings

open Text

theorem consumerName?_eq_some_iff {key name : String} :
    consumerName? key = some name ↔ name ≠ "" ∧ key = "consumer." ++ name := by
  constructor
  · intro h
    unfold consumerName? at h
    split at h
    · rename_i c rest hMark
      cases h
      have hKey := List.isPrefixOf?_eq_some_iff_append_eq.mp hMark
      have hName : (String.ofList (c :: rest)).toList = c :: rest := String.toList_ofList
      constructor
      · intro hEmpty
        rw [hEmpty] at hName
        cases hName
      · apply String.toList_inj.mp
        rw [String.toList_append, hName, ← hKey]
        rfl
    · cases h
  · rintro ⟨hName, rfl⟩
    have hMark : consumerMark.isPrefixOf? ("consumer." ++ name).toList = some name.toList := by
      rw [List.isPrefixOf?_eq_some_iff_append_eq, String.toList_append]
      rfl
    cases hChars : name.toList with
    | nil => exact absurd (String.toList_eq_nil_iff.mp hChars) hName
    | cons c rest =>
      rw [hChars] at hMark
      rw [consumerName?, hMark, ← String.ofList_toList (s := name), hChars]

theorem consumerName?_injective {key key' name : String} (h : consumerName? key = some name)
    (h' : consumerName? key' = some name) : key = key' := by
  rw [(consumerName?_eq_some_iff.mp h).2, (consumerName?_eq_some_iff.mp h').2]

theorem passedOn?_eq_some_iff {property : String × String} {name value : String} :
    passedOn? property = some (name, value) ↔
      name ≠ "" ∧ property = ("consumer." ++ name, value) := by
  obtain ⟨key, held⟩ := property
  simp only [passedOn?, Option.map_eq_some_iff, consumerName?_eq_some_iff, Prod.mk.injEq]
  constructor
  · rintro ⟨_, ⟨hName, hKey⟩, rfl, hValue⟩
    exact ⟨hName, hKey, hValue⟩
  · rintro ⟨hName, hKey, hValue⟩
    exact ⟨name, ⟨hName, hKey⟩, rfl, hValue⟩

section Visited
variable {visited : List (String × String)} (h : (visited.map Prod.fst).Nodup)
include h

/-- Different properties get different names, so none is lost to another. -/
theorem nodup_passedOn : ((visited.filterMap passedOn?).map Prod.fst).Nodup := by
  -- the names are read off the keys alone
  have hNames : (visited.filterMap passedOn?).map Prod.fst =
      (visited.map Prod.fst).filterMap consumerName? := by
    rw [List.map_filterMap, List.filterMap_map]
    apply List.filterMap_congr
    intro property _
    rw [passedOn?, Option.map_map]
    exact Option.map_id'
  rw [hNames]
  exact h.filterMap fun _ _ _ => consumerName?_injective

theorem get?_passOn_eq_some_iff {name value : String} :
    (passOn visited).get? name = some value ↔
      name ≠ "" ∧ ("consumer." ++ name, value) ∈ visited := by
  rw [passOn, Table.get?_ofList_eq_some_iff (nodup_passedOn h), List.mem_filterMap]
  simp only [passedOn?_eq_some_iff]
  constructor
  · rintro ⟨_, hMem, hName, rfl⟩
    exact ⟨hName, hMem⟩
  · rintro ⟨hName, hMem⟩
    exact ⟨_, hMem, hName, rfl⟩

end Visited

section Properties
variable {properties : Table String String}

theorem get?_consumerProperties_eq_some_iff {name value : String} :
    (consumerProperties properties).get? name = some value ↔
      name ≠ "" ∧ properties.get? ("consumer." ++ name) = some value := by
  rw [consumerProperties, get?_passOn_eq_some_iff properties.keys_nodup, Table.get?_eq_some_iff]

theorem passOn_of_perm {visited : List (String × String)} (h : visited.Perm properties.entries) :
    passOn visited = consumerProperties properties :=
  Table.ofList_eq_of_perm (h.filterMap passedOn?) (nodup_passedOn properties.keys_nodup)

theorem timeoutOf_of_none (h : properties.get? timeoutKey = none) :
    timeoutOf properties = .ok 30000 := by
  rw [timeoutOf, h]
  rfl

theorem timeoutOf_of_some {text : String} (h : properties.get? timeoutKey = some text) :
    timeoutOf properties =
      ((readUnsigned (UInt64.size - 1) (trim text.toList)).map UInt64.ofNat).mapError
        (.invalidValue timeoutKey) := by
  rw [timeoutOf, h]
  cases hRead : readUnsigned (UInt64.size - 1) (trim text.toList) <;> simp only [hRead] <;> rfl

theorem readUnsigned_map_eq_ok_iff {text : List Char} {n : UInt64} :
    (readUnsigned (UInt64.size - 1) text).map UInt64.ofNat = .ok n ↔ IsNumeral text n.toNat := by
  have hBound : n.toNat ≤ UInt64.size - 1 := Nat.le_sub_one_of_lt n.toNat_lt_size
  rw [map_eq_ok_iff]
  constructor
  · rintro ⟨m, hRead, rfl⟩
    obtain ⟨hNumeral, hm⟩ := readUnsigned_eq_ok_iff.mp hRead
    have hSame : (UInt64.ofNat m).toNat = m :=
      UInt64.toNat_ofNat_of_lt' (Nat.lt_of_le_pred (by decide) hm)
    rw [hSame]
    exact hNumeral
  · intro hNumeral
    exact ⟨n.toNat, readUnsigned_eq_ok_iff.mpr ⟨hNumeral, hBound⟩, UInt64.ofNat_toNat⟩

theorem timeoutOf_eq_ok_iff {timeout : UInt64} :
    timeoutOf properties = .ok timeout ↔
      (properties.get? timeoutKey = none ∧ timeout = 30000) ∨
        ∃ text, properties.get? timeoutKey = some text ∧
          IsNumeral (trim text.toList) timeout.toNat := by
  cases hText : properties.get? timeoutKey with
  | none =>
    rw [timeoutOf_of_none hText, Except.ok.injEq]
    simp [eq_comm]
  | some text =>
    rw [timeoutOf_of_some hText, mapError_eq_ok_iff, readUnsigned_map_eq_ok_iff]
    simp

theorem timeoutOf_eq_error_iff {error : SettingsError} :
    timeoutOf properties = .error error ↔
      ∃ text fault, properties.get? timeoutKey = some text ∧
        NoNumeral (UInt64.size - 1) (trim text.toList) fault ∧
        error = .invalidValue timeoutKey fault := by
  cases hText : properties.get? timeoutKey with
  | none =>
    rw [timeoutOf_of_none hText]
    simp
  | some text =>
    rw [timeoutOf_of_some hText, mapError_eq_error_iff]
    simp only [map_eq_error_iff, readUnsigned_eq_error_iff]
    simp [eq_comm]

/-- The settings that properties stand for, each told from the property of its name. -/
structure LoadedFrom (properties : Table String String) (settings : Settings) : Prop where
  clusters : settings.whiteListedClusters = properties.get? "whiteListedClusters"
  keySerde : settings.defaultKeySerde = properties.get? "defaultKeySerde"
  valueSerde : settings.defaultValueSerde = properties.get? "defaultValueSerde"
  timeout : (properties.get? "metadataTimeoutMs" = none ∧ settings.metadataTimeoutMs = 30000) ∨
    ∃ text, properties.get? "metadataTimeoutMs" = some text ∧
      IsNumeral (trim text.toList) settings.metadataTimeoutMs.toNat
  consumer : ∀ name value, settings.consumer.get? name = some value ↔
    name ≠ "" ∧ properties.get? ("consumer." ++ name) = some value

theorem LoadedFrom.consumer_eq {settings : Settings} (h : LoadedFrom properties settings) :
    settings.consumer = consumerProperties properties := by
  apply Table.ext_get?
  intro name
  apply Option.ext
  intro value
  rw [h.consumer, get?_consumerProperties_eq_some_iff]

theorem ofProperties_eq_ok_iff {settings : Settings} :
    ofProperties properties = .ok settings ↔ LoadedFrom properties settings := by
  rw [ofProperties]
  constructor
  · intro h
    split at h
    · cases h
    · rename_i timeout hTimeout
      cases h
      exact {
        clusters := rfl
        keySerde := rfl
        valueSerde := rfl
        timeout := timeoutOf_eq_ok_iff.mp hTimeout
        consumer := fun _ _ => get?_consumerProperties_eq_some_iff }
  · intro h
    -- every field of the settings is one that the properties give
    have hTimeout := timeoutOf_eq_ok_iff.mpr h.timeout
    simp only [hTimeout, clustersKey, keySerdeKey, valueSerdeKey, ← h.clusters, ← h.keySerde,
      ← h.valueSerde, ← h.consumer_eq]

theorem ofProperties_eq_error_iff {error : SettingsError} :
    ofProperties properties = .error error ↔
      ∃ text fault, properties.get? "metadataTimeoutMs" = some text ∧
        NoNumeral (UInt64.size - 1) (trim text.toList) fault ∧
        error = .invalidValue "metadataTimeoutMs" fault := by
  have hTimeout : ofProperties properties = .error error ↔ timeoutOf properties = .error error := by
    rw [ofProperties]
    cases timeoutOf properties with
    | error e => simp only [Except.error.injEq]
    | ok timeout => exact iff_of_false nofun nofun
  exact hTimeout.trans timeoutOf_eq_error_iff

theorem exists_ofProperties_eq_error_iff :
    (∃ error, ofProperties properties = .error error) ↔
      ∃ text, properties.get? "metadataTimeoutMs" = some text ∧
        ¬ ∃ n, IsNumeral (trim text.toList) n ∧ n ≤ UInt64.size - 1 := by
  simp only [ofProperties_eq_error_iff, ← exists_noNumeral_iff]
  constructor
  · rintro ⟨_, text, fault, hText, hFault, _⟩
    exact ⟨text, hText, fault, hFault⟩
  · rintro ⟨text, hText, fault, hFault⟩
    exact ⟨_, text, fault, hText, hFault, rfl⟩

/-- The properties that are looked at. -/
def Matters (key : String) : Prop :=
  key = "whiteListedClusters" ∨ key = "defaultKeySerde" ∨ key = "defaultValueSerde" ∨
    key = "metadataTimeoutMs" ∨ ∃ name, name ≠ "" ∧ key = "consumer." ++ name

theorem ofProperties_congr {properties' : Table String String}
    (h : ∀ key, Matters key → properties'.get? key = properties.get? key) :
    ofProperties properties' = ofProperties properties := by
  have hClusters : properties'.get? clustersKey = properties.get? clustersKey :=
    h _ (Or.inl rfl)
  have hKeySerde : properties'.get? keySerdeKey = properties.get? keySerdeKey :=
    h _ (Or.inr (Or.inl rfl))
  have hValueSerde : properties'.get? valueSerdeKey = properties.get? valueSerdeKey :=
    h _ (Or.inr (Or.inr (Or.inl rfl)))
  have hTimeout : properties'.get? timeoutKey = properties.get? timeoutKey :=
    h _ (Or.inr (Or.inr (Or.inr (Or.inl rfl))))
  have hConsumer : consumerProperties properties' = consumerProperties properties := by
    apply Table.ext_get?
    intro name
    apply Option.ext
    intro value
    rw [get?_consumerProperties_eq_some_iff, get?_consumerProperties_eq_some_iff]
    apply and_congr_right
    intro hName
    rw [h _ (Or.inr (Or.inr (Or.inr (Or.inr ⟨name, hName, rfl⟩))))]
  rw [ofProperties, ofProperties, timeoutOf, timeoutOf, hTimeout, hClusters, hKeySerde,
    hValueSerde, hConsumer]

end Properties

/-- Settings are refused only for a timeout that is no numeral of 64 bits, whatever else is given.
Otherwise they are those that the properties stand for, in whatever order the properties are
visited, and properties that are not looked at change nothing. -/
theorem properties_loaded (properties : Table String String) :
    ((∃ error, ofProperties properties = .error error) ↔
      ∃ text, properties.get? "metadataTimeoutMs" = some text ∧
        ¬ ∃ n, IsNumeral (trim text.toList) n ∧ n ≤ UInt64.size - 1) ∧
    (∀ error, ofProperties properties = .error error ↔
      ∃ text fault, properties.get? "metadataTimeoutMs" = some text ∧
        NoNumeral (UInt64.size - 1) (trim text.toList) fault ∧
        error = .invalidValue "metadataTimeoutMs" fault) ∧
    (∀ settings, ofProperties properties = .ok settings ↔ LoadedFrom properties settings) ∧
    (∀ settings, ofProperties properties = .ok settings →
      ∀ visited : List (String × String), visited.Perm properties.entries →
        passOn visited = settings.consumer) ∧
    ∀ properties' : Table String String,
      (∀ key, Matters key → properties'.get? key = properties.get? key) →
        ofProperties properties' = ofProperties properties := by
  refine ⟨exists_ofProperties_eq_error_iff, fun _ => ofProperties_eq_error_iff,
    fun _ => ofProperties_eq_ok_iff, ?_, fun _ => ofProperties_congr⟩
  intro settings h visited hVisited
  rw [(ofProperties_eq_ok_iff.mp h).consumer_eq, passOn_of_perm hVisited]

/-- A mark without a name, a mark that stands twice, a marked option, a timeout with a sign and
leading zeros, and one that is too large by one. -/
theorem properties_loaded_marked :
    let properties := Table.ofList [("consumer.", "x"), ("consumer.consumer.x", "1"),
      ("consumer.metadataTimeoutMs", "no"), ("defaultKeySerde", " "),
      ("metadataTimeoutMs", "\t+0500 "), ("other", "y")]
    let settings : Settings := ⟨none, some " ", none, 500,
      Table.ofList [("consumer.x", "1"), ("metadataTimeoutMs", "no")]⟩
    let late := properties.insert "metadataTimeoutMs" "18446744073709551616"
    LoadedFrom properties settings ∧
      passOn properties.entries.reverse = settings.consumer ∧
      ofProperties (properties.insert "other" "z") = ofProperties properties ∧
      ∃ text, late.get? "metadataTimeoutMs" = some text ∧
        ¬ ∃ n, IsNumeral (trim text.toList) n ∧ n ≤ UInt64.size - 1 := by
  intro properties settings late
  obtain ⟨_, _, hLoaded, hVisited, hCongr⟩ := properties_loaded properties
  obtain ⟨hRefused, _⟩ := properties_loaded late
  have hRead : ofProperties properties = .ok settings := by decide +kernel
  have hLate : ofProperties late = .error (.invalidValue "metadataTimeoutMs" .tooLarge) := by
    decide +kernel
  have hOther : ∀ key, Matters key → key ≠ "other" := by
    rintro key (rfl | rfl | rfl | rfl | ⟨name, _, rfl⟩) hKey
    · exact absurd hKey (by decide)
    · exact absurd hKey (by decide)
    · exact absurd hKey (by decide)
    · exact absurd hKey (by decide)
    · have hChars := congrArg String.toList hKey
      rw [String.toList_append] at hChars
      cases hChars
  refine ⟨(hLoaded settings).mp hRead, hVisited settings hRead _ (List.reverse_perm _), ?_,
    hRefused.mp ⟨_, hLate⟩⟩
  exact hCongr _ fun key hKey => Table.get?_insert_of_ne properties (hOther key hKey) _

end StreamAdmission.Settings
