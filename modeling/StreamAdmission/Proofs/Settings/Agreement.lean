import StreamAdmission.Proofs.Settings.Properties
import StreamAdmission.Proofs.Text.Trim
import StreamAdmission.Proofs.Toml.Document
import StreamAdmission.Settings.Toml

/-!
# Settings from a file and from properties

Settings can be given as a TOML document and as a table of properties. Where both are written from the
same settings, both give these settings back: a text stays what it is between its quotes, a name with
dots does not become a table, and a set option stays set even if it is blank.
-/

namespace StreamAdmission.Settings

open Toml

/-! ### How settings are written -/

inductive Given where
  | text (value : String)
  | number (n : Nat)
  deriving DecidableEq

namespace Given

def toml : Given → List Char
  | .text value => quoted value
  | .number n => Text.decimal n

def node : Given → Node
  | .text value => .string value
  | .number n => .scalar (.integer n)

def property : Given → String
  | .text value => value
  | .number n => String.ofList (Text.decimal n)

end Given

/-- The options that are set, under their names. -/
def given (s : Settings) : List (String × Given) :=
  (s.whiteListedClusters.map fun value => (clustersKey, Given.text value)).toList ++
    (s.defaultKeySerde.map fun value => (keySerdeKey, Given.text value)).toList ++
    (s.defaultValueSerde.map fun value => (valueSerdeKey, Given.text value)).toList ++
    [(timeoutKey, .number s.metadataTimeoutMs.toNat)]

/-- The text has a line for each option that is set, in any order, and below the header of the table
`consumer` a line for each property of the client, in any order too. -/
def IsToml (s : Settings) (text : String) : Prop :=
  ∃ (options : List (String × Given)) (entries : List (String × String)),
    options.Perm s.given ∧ entries.Perm s.consumer.entries ∧
      LinesText (options.map (fun option => entryLine option.1.toList option.2.toml) ++
        headerLine consumerKey ::
          entries.map fun entry => entryLine (quoted entry.1) (quoted entry.2)) text.toList

/-- The same options and values as properties, those of the client with the mark before their names. -/
def toProperties (s : Settings) : Table String String :=
  Table.ofList (s.given.map (fun option => (option.1, option.2.property)) ++
    s.consumer.entries.map fun entry => ("consumer." ++ entry.1, entry.2))

/-- All texts are printable, and the client's names are not empty. -/
structure HasPrintableTexts (s : Settings) : Prop where
  clusters : ∀ value, s.whiteListedClusters = some value → IsPrintable value
  keySerde : ∀ value, s.defaultKeySerde = some value → IsPrintable value
  valueSerde : ∀ value, s.defaultValueSerde = some value → IsPrintable value
  consumer : ∀ entry ∈ s.consumer.entries, entry.1 ≠ "" ∧ IsPrintable entry.1 ∧ IsPrintable entry.2

/-- As a document needs it, the timeout also fits into a signed number of 64 bits. -/
structure IsWritable (s : Settings) : Prop extends HasPrintableTexts s where
  timeout : s.metadataTimeoutMs.toNat ≤ 9223372036854775807

variable {s : Settings}

theorem mem_given_iff {name : String} {value : Given} :
    (name, value) ∈ s.given ↔
      (∃ v, s.whiteListedClusters = some v ∧ name = clustersKey ∧ value = .text v) ∨
      (∃ v, s.defaultKeySerde = some v ∧ name = keySerdeKey ∧ value = .text v) ∨
      (∃ v, s.defaultValueSerde = some v ∧ name = valueSerdeKey ∧ value = .text v) ∨
      name = timeoutKey ∧ value = .number s.metadataTimeoutMs.toNat := by
  simp [given, Option.mem_toList, eq_comm]

theorem mem_given_clusters_iff {value : Given} :
    (clustersKey, value) ∈ s.given ↔ ∃ v, s.whiteListedClusters = some v ∧ value = .text v := by
  simp [mem_given_iff, clustersKey, keySerdeKey, valueSerdeKey, timeoutKey]

theorem mem_given_keySerde_iff {value : Given} :
    (keySerdeKey, value) ∈ s.given ↔ ∃ v, s.defaultKeySerde = some v ∧ value = .text v := by
  simp [mem_given_iff, clustersKey, keySerdeKey, valueSerdeKey, timeoutKey]

theorem mem_given_valueSerde_iff {value : Given} :
    (valueSerdeKey, value) ∈ s.given ↔ ∃ v, s.defaultValueSerde = some v ∧ value = .text v := by
  simp [mem_given_iff, clustersKey, keySerdeKey, valueSerdeKey, timeoutKey]

theorem mem_given_timeout : (timeoutKey, Given.number s.metadataTimeoutMs.toNat) ∈ s.given :=
  mem_given_iff.mpr (Or.inr (Or.inr (Or.inr ⟨rfl, rfl⟩)))

theorem eq_timeout_of_mem_given {name : String} {n : Nat} (h : (name, .number n) ∈ s.given) :
    n = s.metadataTimeoutMs.toNat := by
  rcases mem_given_iff.mp h with ⟨_, _, _, h⟩ | ⟨_, _, _, h⟩ | ⟨_, _, _, h⟩ | ⟨_, h⟩ <;> cases h
  rfl

theorem HasPrintableTexts.isPrintable_of_mem_given (h : s.HasPrintableTexts) {name text : String}
    (hGiven : (name, .text text) ∈ s.given) : IsPrintable text := by
  rcases mem_given_iff.mp hGiven with
    ⟨_, hSet, _, hText⟩ | ⟨_, hSet, _, hText⟩ | ⟨_, hSet, _, hText⟩ | ⟨_, hText⟩ <;> cases hText
  · exact h.clusters text hSet
  · exact h.keySerde text hSet
  · exact h.valueSerde text hSet

theorem names_given_sublist :
    (s.given.map Prod.fst).Sublist [clustersKey, keySerdeKey, valueSerdeKey, timeoutKey] := by
  obtain ⟨clusters, keySerde, valueSerde, timeout, consumer⟩ := s
  cases clusters <;> cases keySerde <;> cases valueSerde <;> simp [given]

theorem nodup_names_given : (s.given.map Prod.fst).Nodup :=
  names_given_sublist.nodup (by decide)

/-! ### Options in a document -/

theorem toml_valueText (h : s.IsWritable) {name : String} {value : Given}
    (hGiven : (name, value) ∈ s.given) : ValueText value.toml value.node := by
  cases value with
  | text text => exact .string (h.isPrintable_of_mem_given hGiven)
  | number n =>
    have hTimeout := h.timeout
    rw [← eq_timeout_of_mem_given hGiven] at hTimeout
    refine .number ?_
    simp only [Json.maxInteger]
    omega

theorem isBare_names : ∀ name ∈ [clustersKey, keySerdeKey, valueSerdeKey, timeoutKey, consumerKey],
    KeyText name.toList name := by
  have hBare : ∀ name ∈ [clustersKey, keySerdeKey, valueSerdeKey, timeoutKey, consumerKey],
      name.toList ≠ [] ∧ name.toList.all isBareChar = true := by
    decide
  intro name hName
  obtain ⟨hText, hAll⟩ := hBare name hName
  exact .bare hText (List.all_eq_true.mp hAll)

theorem readsEntry_options (h : s.IsWritable) {options : List (String × Given)}
    (hOptions : options.Perm s.given) :
    List.Forall₂ ReadsEntry (options.map fun option => entryLine option.1.toList option.2.toml)
      ((options.map fun option => (option.1, option.2.node)).map leaf) := by
  rw [List.map_map, List.forall₂_map_left_iff, List.forall₂_map_right_iff, List.forall₂_same]
  rintro ⟨name, value⟩ hOption
  have hGiven := hOptions.mem_iff.mp hOption
  have hName : name ∈ [clustersKey, keySerdeKey, valueSerdeKey, timeoutKey] :=
    names_given_sublist.subset (List.mem_map.mpr ⟨_, hGiven, rfl⟩)
  exact readsEntry_entryLine (isBare_names name (List.mem_append_left [consumerKey] hName))
    (toml_valueText h hGiven)

theorem readsEntry_consumer (h : s.IsWritable) {entries : List (String × String)}
    (hEntries : entries.Perm s.consumer.entries) :
    List.Forall₂ ReadsEntry (entries.map fun entry => entryLine (quoted entry.1) (quoted entry.2))
      ((entries.map fun entry => (entry.1, Node.string entry.2)).map leaf) := by
  rw [List.map_map, List.forall₂_map_left_iff, List.forall₂_map_right_iff, List.forall₂_same]
  intro entry hEntry
  obtain ⟨-, hKey, hValue⟩ := h.consumer entry (hEntries.mem_iff.mp hEntry)
  exact readsEntry_entryLine (.quoted hKey) (.string hValue)

section Tree
variable {options : List (String × Given)} {entries : List (String × String)}

/-- The members of the document: the options, and the table for the client. -/
def tree (options : List (String × Given)) (entries : List (String × String)) : Members :=
  options.map (fun option => (option.1, option.2.node)) ++
    [(consumerKey, .table .defined (entries.map fun entry => (entry.1, .string entry.2)))]

theorem names_options (hOptions : options.Perm s.given) :
    ((options.map fun option => (option.1, option.2.node)).map Prod.fst).Perm
      (s.given.map Prod.fst) := by
  rw [List.map_map]
  exact hOptions.map Prod.fst

theorem consumerKey_not_mem (hOptions : options.Perm s.given) :
    consumerKey ∉ (options.map fun option => (option.1, option.2.node)).map Prod.fst := by
  rw [(names_options hOptions).mem_iff]
  intro hName
  exact absurd (names_given_sublist.subset hName) (by decide)

theorem parse?_tree (h : s.IsWritable) (hOptions : options.Perm s.given)
    (hEntries : entries.Perm s.consumer.entries) {text : String}
    (hText : LinesText (options.map (fun option => entryLine option.1.toList option.2.toml) ++
      headerLine consumerKey ::
        entries.map fun entry => entryLine (quoted entry.1) (quoted entry.2)) text.toList) :
    parse? text = some (tree options entries) := by
  refine parse?_table (readsEntry_options h hOptions) (readsEntry_consumer h hEntries)
    (isBare_names consumerKey (by decide)) ?_ ?_ (consumerKey_not_mem hOptions) hText
  · exact (names_options hOptions).nodup_iff.mpr nodup_names_given
  · rw [List.map_map]
    exact (hEntries.map Prod.fst).nodup_iff.mpr s.consumer.keys_nodup

theorem nodup_tree (hOptions : options.Perm s.given) :
    ((tree options entries).map Prod.fst).Nodup := by
  rw [tree, List.map_append, List.nodup_append]
  refine ⟨(names_options hOptions).nodup_iff.mpr nodup_names_given, List.nodup_singleton _, ?_⟩
  rintro name hName _ hConsumer rfl
  obtain rfl : name = consumerKey := List.mem_singleton.mp hConsumer
  exact consumerKey_not_mem hOptions hName

theorem find?_tree (hOptions : options.Perm s.given) {name : String} {value : Given}
    (h : (name, value) ∈ s.given) : find? name (tree options entries) = some value.node := by
  refine find?_eq_some_of_mem (nodup_tree hOptions) (List.mem_append_left _ ?_)
  exact List.mem_map.mpr ⟨(name, value), hOptions.mem_iff.mpr h, rfl⟩

theorem find?_tree_eq_none (hOptions : options.Perm s.given) {name : String}
    (hName : name ≠ consumerKey) (h : ∀ value, (name, value) ∉ s.given) :
    find? name (tree options entries) = none := by
  rw [find?_eq_none_iff, tree, List.map_append, List.mem_append, not_or]
  refine ⟨?_, fun hConsumer => hName (List.mem_singleton.mp hConsumer)⟩
  rw [(names_options hOptions).mem_iff]
  intro hMem
  obtain ⟨⟨_, value⟩, hGiven, rfl⟩ := List.mem_map.mp hMem
  exact h value hGiven

theorem tomlText?_tree (hOptions : options.Perm s.given) {name : String} {value : Option String}
    (hName : name ≠ consumerKey)
    (h : ∀ g, (name, g) ∈ s.given ↔ ∃ v, value = some v ∧ g = .text v) :
    tomlText? name (tree options entries) = some value := by
  cases value with
  | none =>
    have hAbsent : ∀ g, (name, g) ∉ s.given := by
      intro g hGiven
      obtain ⟨_, hNone, _⟩ := (h g).mp hGiven
      cases hNone
    rw [tomlText?, find?_tree_eq_none hOptions hName hAbsent]
  | some v =>
    rw [tomlText?, find?_tree hOptions ((h (.text v)).mpr ⟨v, rfl, rfl⟩)]
    rfl

theorem mapM_map_eq_some {α β : Type} {f : β → Option α} {g : α → β} (h : ∀ a, f (g a) = some a)
    (items : List α) : (items.map g).mapM f = some items := by
  induction items with
  | nil => rfl
  | cons item items ih =>
    rw [List.map_cons, List.mapM_cons, h, ih]
    rfl

theorem tomlTexts?_strings (hEntries : entries.Perm s.consumer.entries) :
    tomlTexts? (entries.map fun entry => (entry.1, .string entry.2)) = some s.consumer := by
  rw [tomlTexts?, mapM_map_eq_some]
  · simp only [Option.bind_eq_bind, Option.bind_some, Table.ofList_of_perm hEntries]
    rfl
  · exact fun _ => rfl

theorem ofTomlMembers?_tree (hOptions : options.Perm s.given)
    (hEntries : entries.Perm s.consumer.entries) :
    ofTomlMembers? (tree options entries) = some s := by
  have hClusters : tomlText? clustersKey (tree options entries) = some s.whiteListedClusters :=
    tomlText?_tree hOptions (by decide) fun _ => mem_given_clusters_iff
  have hKeySerde : tomlText? keySerdeKey (tree options entries) = some s.defaultKeySerde :=
    tomlText?_tree hOptions (by decide) fun _ => mem_given_keySerde_iff
  have hValueSerde : tomlText? valueSerdeKey (tree options entries) = some s.defaultValueSerde :=
    tomlText?_tree hOptions (by decide) fun _ => mem_given_valueSerde_iff
  have hTimeout : tomlTimeout? (tree options entries) = some s.metadataTimeoutMs := by
    rw [tomlTimeout?, find?_tree hOptions mem_given_timeout]
    simp [Given.node]
  have hConsumer : tomlConsumer? (tree options entries) = some s.consumer := by
    have hTable : find? consumerKey (tree options entries) =
        some (.table .defined (entries.map fun entry => (entry.1, .string entry.2))) :=
      find?_eq_some_of_mem (nodup_tree hOptions)
        (List.mem_append_right _ (List.mem_singleton.mpr rfl))
    rw [tomlConsumer?, hTable]
    exact tomlTexts?_strings hEntries
  rw [ofTomlMembers?, hClusters, hKeySerde, hValueSerde, hTimeout, hConsumer]
  rfl

end Tree

theorem ofToml_eq_ok (h : s.IsWritable) {text : String} (hText : s.IsToml text) :
    ofToml text = .ok s := by
  obtain ⟨options, entries, hOptions, hEntries, hLines⟩ := hText
  rw [ofToml, parse?_tree h hOptions hEntries hLines, Option.bind_some,
    ofTomlMembers?_tree hOptions hEntries]

/-! ### Options among properties -/

/-- No option is named like a property for the client. -/
theorem marked_ne : ∀ name ∈ [clustersKey, keySerdeKey, valueSerdeKey, timeoutKey],
    ∀ key : String, "consumer." ++ key ≠ name := by
  have hFirst : ∀ name ∈ [clustersKey, keySerdeKey, valueSerdeKey, timeoutKey],
      name.toList.head? ≠ some 'c' := by
    decide
  rintro name hName key rfl
  exact hFirst _ hName (by rw [String.toList_append]; rfl)

theorem marked_injective {key key' : String} (h : "consumer." ++ key = "consumer." ++ key') :
    key = key' := by
  have hChars := congrArg String.toList h
  rw [String.toList_append, String.toList_append] at hChars
  exact String.toList_inj.mp (List.append_cancel_left hChars)

theorem nodup_properties :
    ((s.given.map (fun option => (option.1, option.2.property)) ++
      s.consumer.entries.map fun entry => ("consumer." ++ entry.1, entry.2)).map Prod.fst).Nodup := by
  have hOptions : (s.given.map fun option => (option.1, option.2.property)).map Prod.fst =
      s.given.map Prod.fst := by
    rw [List.map_map]
    rfl
  have hConsumer : (s.consumer.entries.map fun entry => ("consumer." ++ entry.1, entry.2)).map
      Prod.fst = s.consumer.keys.map ("consumer." ++ ·) := by
    rw [Table.keys, List.map_map, List.map_map]
    rfl
  rw [List.map_append, hOptions, hConsumer, List.nodup_append]
  refine ⟨nodup_names_given, s.consumer.keys_nodup.map fun _ _ => marked_injective, ?_⟩
  rintro name hName _ hMarked rfl
  obtain ⟨key, -, hKey⟩ := List.mem_map.mp hMarked
  exact marked_ne name (names_given_sublist.subset hName) key hKey

theorem get?_toProperties_option {name value : String}
    (hName : name ∈ [clustersKey, keySerdeKey, valueSerdeKey, timeoutKey]) :
    s.toProperties.get? name = some value ↔ ∃ g, (name, g) ∈ s.given ∧ g.property = value := by
  rw [toProperties, Table.get?_ofList_eq_some_iff nodup_properties, List.mem_append]
  constructor
  · rintro (hOption | hMarked)
    · obtain ⟨⟨_, g⟩, hGiven, hSame⟩ := List.mem_map.mp hOption
      obtain ⟨rfl, rfl⟩ := Prod.mk.inj hSame
      exact ⟨g, hGiven, rfl⟩
    · obtain ⟨entry, -, hSame⟩ := List.mem_map.mp hMarked
      exact absurd (Prod.mk.inj hSame).1 (marked_ne name hName entry.1)
  · rintro ⟨g, hGiven, rfl⟩
    exact Or.inl (List.mem_map.mpr ⟨(name, g), hGiven, rfl⟩)

theorem get?_toProperties_marked {key value : String} :
    s.toProperties.get? ("consumer." ++ key) = some value ↔ s.consumer.get? key = some value := by
  rw [toProperties, Table.get?_ofList_eq_some_iff nodup_properties, List.mem_append,
    Table.get?_eq_some_iff]
  constructor
  · rintro (hOption | hMarked)
    · obtain ⟨⟨name, g⟩, hGiven, hSame⟩ := List.mem_map.mp hOption
      have hName : name ∈ [clustersKey, keySerdeKey, valueSerdeKey, timeoutKey] :=
        names_given_sublist.subset (List.mem_map.mpr ⟨_, hGiven, rfl⟩)
      exact absurd (Prod.mk.inj hSame).1.symm (marked_ne name hName key)
    · obtain ⟨⟨key', _⟩, hEntry, hSame⟩ := List.mem_map.mp hMarked
      obtain ⟨hKey, rfl⟩ := Prod.mk.inj hSame
      rwa [← marked_injective hKey]
  · intro hEntry
    exact Or.inr (List.mem_map.mpr ⟨(key, value), hEntry, rfl⟩)

theorem isNumeral_decimal (n : Nat) : Text.IsNumeral (Text.decimal n) n :=
  have h := Json.isNatural_decimal n
  ⟨Text.decimal n, Or.inl rfl, h.ne_nil, h.all, h.value⟩

theorem trim_decimal (n : Nat) : Text.trim (Text.decimal n) = Text.decimal n := by
  refine Text.trim_eq_self (Text.isTrimmed_of_forall ?_)
  intro c hc
  have hDigit := Text.mem_decimal hc
  simp [Text.isBlank, Char.le_def, UInt32.le_iff_toNat_le, Char.ext_iff, ← UInt32.toNat_inj]
    at hDigit ⊢
  omega

theorem loadedFrom_toProperties (h : ∀ entry ∈ s.consumer.entries, entry.1 ≠ "") :
    LoadedFrom s.toProperties s where
  clusters := by
    refine Option.ext fun value => ?_
    refine Iff.trans ?_ (@get?_toProperties_option s clustersKey value (by decide)).symm
    simp [mem_given_clusters_iff, Given.property]
  keySerde := by
    refine Option.ext fun value => ?_
    refine Iff.trans ?_ (@get?_toProperties_option s keySerdeKey value (by decide)).symm
    simp [mem_given_keySerde_iff, Given.property]
  valueSerde := by
    refine Option.ext fun value => ?_
    refine Iff.trans ?_ (@get?_toProperties_option s valueSerdeKey value (by decide)).symm
    simp [mem_given_valueSerde_iff, Given.property]
  timeout := by
    refine Or.inr ⟨String.ofList (Text.decimal s.metadataTimeoutMs.toNat), ?_, ?_⟩
    · exact (get?_toProperties_option (by decide)).mpr ⟨.number _, mem_given_timeout, rfl⟩
    · rw [String.toList_ofList, trim_decimal]
      exact isNumeral_decimal _
  consumer := by
    intro name value
    rw [get?_toProperties_marked]
    constructor
    · intro hValue
      exact ⟨h (name, value) (Table.get?_eq_some_iff.mp hValue), hValue⟩
    · exact And.right

theorem HasPrintableTexts.ofProperties_eq_ok (h : s.HasPrintableTexts) :
    ofProperties s.toProperties = .ok s :=
  ofProperties_eq_ok_iff.mpr (loadedFrom_toProperties fun entry hEntry => (h.consumer entry hEntry).1)

/-- Settings written as a document and settings written as properties are loaded as what they were. -/
theorem toml_agrees (s : Settings) (h : s.IsWritable) (text : String) (hText : s.IsToml text) :
    ofToml text = .ok s ∧ ofProperties s.toProperties = .ok s :=
  ⟨ofToml_eq_ok h hText, h.ofProperties_eq_ok⟩

/-- An empty option, a quote and a backslash, a name with a dot and a hash, and the greatest timeout. -/
def peculiar : Settings where
  whiteListedClusters := some ""
  defaultKeySerde := none
  defaultValueSerde := some "\"\\"
  metadataTimeoutMs := 9223372036854775807
  consumer := Table.ofList [("a.b", " # "), ("\"", "")]

def peculiarToml : String :=
  "metadataTimeoutMs = 9223372036854775807\nwhiteListedClusters = \"\"\n" ++
    "defaultValueSerde = \"\\\"\\\\\"\n[consumer]\n\"a.b\" = \" # \"\n\"\\\"\" = \"\"\n"

theorem isWritable_peculiar : peculiar.IsWritable where
  clusters := by
    rintro _ ⟨⟩
    decide
  keySerde := nofun
  valueSerde := by
    rintro _ ⟨⟩
    decide
  consumer := by decide +kernel
  timeout := by decide

theorem isToml_peculiar : peculiar.IsToml peculiarToml := by
  refine ⟨[(timeoutKey, .number 9223372036854775807), (clustersKey, .text ""),
    (valueSerdeKey, .text "\"\\")], [("a.b", " # "), ("\"", "")], ?_, ?_, ?_⟩
  · decide +kernel
  · decide +kernel
  · exact linesText_of_flatMap (by decide +kernel)

theorem toml_agrees_peculiar :
    (peculiar.IsWritable ∧ peculiar.IsToml peculiarToml) ∧
      ofToml peculiarToml = .ok peculiar ∧ ofProperties peculiar.toProperties = .ok peculiar :=
  ⟨⟨isWritable_peculiar, isToml_peculiar⟩,
    toml_agrees peculiar isWritable_peculiar peculiarToml isToml_peculiar⟩

end StreamAdmission.Settings
