import StreamAdmission.Proofs.Settings.Agreement
import StreamAdmission.Proofs.Yaml.Block
import StreamAdmission.Settings.Yaml

/-!
# Settings from blocks and from properties

Settings can also be given as YAML, with a line for each option and an indented line for each property of
the client. A text between quotes is then set, even where the same text without quotes stands for nothing
or for a number.
-/

namespace StreamAdmission.Settings

open Toml (LinesText IsPrintable quoted)
open Yaml (Block Document Scalar Tree)

/-! ### How settings are written -/

def Given.scalar : Given → Scalar
  | .text value => .quoted value
  | .number n => .plain (String.ofList (Text.decimal n))

def optionLine (option : String × Given) : List Char :=
  option.1.toList ++ ':' :: ' ' :: option.2.scalar.written

def consumerLines : List (String × String) → List (List Char)
  | [] => []
  | entries => (consumerKey.toList ++ [':']) ::
    entries.map fun entry => ' ' :: ' ' :: (quoted entry.1 ++ ':' :: ' ' :: quoted entry.2)

/-- The text has a line for each option that is set, in any order, and anywhere between them, unless
there are none, the properties of the client in any order too. -/
def IsYaml (s : Settings) (text : String) : Prop :=
  ∃ (before after : List (String × Given)) (entries : List (String × String)),
    (before ++ after).Perm s.given ∧ entries.Perm s.consumer.entries ∧
      LinesText (before.map optionLine ++ (consumerLines entries ++ after.map optionLine)) text.toList

/-- As a block needs it, the client's names also have no more than 128 characters. -/
structure IsBlockWritable (s : Settings) : Prop extends HasPrintableTexts s where
  names : ∀ entry ∈ s.consumer.entries, entry.1.length ≤ 128

variable {s : Settings} {before after options : List (String × Given)}
  {entries : List (String × String)}

/-! ### The block of a document -/

def optionsBlock (options : List (String × Given)) (others : Block) : Block :=
  options.foldr (fun option others => .entry (.plain option.1) option.2.scalar others) others

def entriesBlock (entries : List (String × String)) : Block :=
  entries.foldr (fun entry others => .entry (.quoted entry.1) (.quoted entry.2) others) .done

def consumerBlock (entries : List (String × String)) (others : Block) : Block :=
  if entries = [] then others else .nested (.plain consumerKey) (entriesBlock entries) others

def document (before after : List (String × Given)) (entries : List (String × String)) : Block :=
  optionsBlock before (consumerBlock entries (optionsBlock after .done))

theorem lines_optionsBlock (options : List (String × Given)) (others : Block) :
    (optionsBlock options others).lines 0 = options.map optionLine ++ others.lines 0 := by
  induction options with
  | nil => rfl
  | cons option options ih => exact congrArg (optionLine option :: ·) ih

theorem lines_entriesBlock (entries : List (String × String)) :
    (entriesBlock entries).lines 2 = entries.map fun entry =>
      ' ' :: ' ' :: (quoted entry.1 ++ ':' :: ' ' :: quoted entry.2) := by
  induction entries with
  | nil => rfl
  | cons entry entries ih => exact congrArg (_ :: ·) ih

theorem lines_consumerBlock (entries : List (String × String)) (others : Block) :
    (consumerBlock entries others).lines 0 = consumerLines entries ++ others.lines 0 := by
  cases entries with
  | nil => rfl
  | cons entry entries =>
    have hLines := lines_entriesBlock (entry :: entries)
    rw [consumerBlock, if_neg (List.cons_ne_nil _ _), Block.lines, hLines]
    rfl

theorem lines_document (before after : List (String × Given)) (entries : List (String × String)) :
    (document before after entries).lines 0 =
      before.map optionLine ++ (consumerLines entries ++ after.map optionLine) := by
  rw [document, lines_optionsBlock, lines_consumerBlock, lines_optionsBlock, Block.lines,
    List.append_nil]

theorem writable_names :
    ∀ name ∈ [clustersKey, keySerdeKey, valueSerdeKey, timeoutKey, consumerKey],
      (Scalar.plain name).Writable ∧ (Scalar.plain name).written.length ≤ Yaml.Reading.keyLimit := by
  have hNames : ∀ name ∈ [clustersKey, keySerdeKey, valueSerdeKey, timeoutKey, consumerKey],
      name.toList ≠ [] ∧ name.toList.all Char.isAlphanum = true ∧ name.toList.length ≤ 1024 := by
    decide
  intro name hName
  obtain ⟨ne_nil, hAll, hShort⟩ := hNames name hName
  exact ⟨.plain ne_nil (List.all_eq_true.mp hAll), hShort⟩

theorem writable_value (h : s.IsBlockWritable) {name : String} {value : Given}
    (hGiven : (name, value) ∈ s.given) : value.scalar.Writable := by
  cases value with
  | text text => exact .quoted (h.isPrintable_of_mem_given hGiven)
  | number n =>
    have hDecimal := Json.isNatural_decimal n
    apply Scalar.Writable.plain
    · rw [String.toList_ofList]
      exact hDecimal.ne_nil
    · intro c hc
      rw [String.toList_ofList] at hc
      exact Text.isAlphanum_iff.mpr (Or.inr (hDecimal.all c hc))

theorem writable_optionsBlock (h : s.IsBlockWritable) (hOptions : ∀ option ∈ options, option ∈ s.given)
    {others : Block} (hOthers : others.Writable) : (optionsBlock options others).Writable := by
  induction options with
  | nil => exact hOthers
  | cons option options ih =>
    obtain ⟨hOption, hOptions⟩ := List.forall_mem_cons.mp hOptions
    have hGiven : option.1 ∈ [clustersKey, keySerdeKey, valueSerdeKey, timeoutKey] :=
      names_given_sublist.subset (List.mem_map.mpr ⟨_, hOption, rfl⟩)
    obtain ⟨hName, hShort⟩ := writable_names _ (List.mem_append_left [consumerKey] hGiven)
    exact .entry hName hShort (writable_value h hOption) (ih hOptions)

theorem writable_entriesBlock (h : s.IsBlockWritable)
    (hEntries : ∀ entry ∈ entries, entry ∈ s.consumer.entries) : (entriesBlock entries).Writable := by
  induction entries with
  | nil => exact .done
  | cons entry entries ih =>
    obtain ⟨hEntry, hEntries⟩ := List.forall_mem_cons.mp hEntries
    obtain ⟨_, hKey, hValue⟩ := h.consumer entry hEntry
    have hShort := h.names entry hEntry
    have hLength := Toml.length_quoted_le entry.1
    refine .entry (.quoted hKey) ?_ (.quoted hValue) (ih hEntries)
    show (quoted entry.1).length ≤ 1024
    omega

theorem writable_document (h : s.IsBlockWritable) (hOptions : (before ++ after).Perm s.given)
    (hEntries : entries.Perm s.consumer.entries) : (document before after entries).Writable := by
  obtain ⟨hBefore, hAfter⟩ := List.forall_mem_append.mp fun option => hOptions.mem_iff.mp
  have hAfterBlock := writable_optionsBlock h hAfter .done
  apply writable_optionsBlock h hBefore
  rw [consumerBlock]
  split
  · exact hAfterBlock
  · rename_i hNonempty
    obtain ⟨hName, hShort⟩ := writable_names consumerKey (by decide)
    refine .nested hName hShort ?_ (writable_entriesBlock h fun entry => hEntries.mem_iff.mp)
      hAfterBlock
    obtain ⟨entry, others, rfl⟩ := List.exists_cons_of_ne_nil hNonempty
    exact Block.noConfusion

/-- The timeout is always written. -/
theorem document_ne_done (hOptions : (before ++ after).Perm s.given) :
    document before after entries ≠ .done := by
  have hTimeout : (timeoutKey, Given.number s.metadataTimeoutMs.toNat) ∈ before ++ after :=
    hOptions.mem_iff.mpr mem_given_timeout
  cases before with
  | cons option before => exact Block.noConfusion
  | nil =>
    cases after with
    | nil => cases hTimeout
    | cons option after =>
      cases entries with
      | nil => exact Block.noConfusion
      | cons entry entries => exact Block.noConfusion

/-! ### Members -/

def optionTree (option : String × Given) : String × Tree := (option.1, option.2.scalar.tree)

def entryTree (entry : String × String) : Tree × Tree :=
  ((Scalar.quoted entry.1).tree, (Scalar.quoted entry.2).tree)

def consumerTrees : List (String × String) → List (String × Tree)
  | [] => []
  | entries => [(consumerKey, .mapping (entries.map entryTree))]

/-- The members of the document by their names. -/
def members (before after : List (String × Given)) (entries : List (String × String)) :
    List (String × Tree) :=
  before.map optionTree ++ (consumerTrees entries ++ after.map optionTree)

def keyed (member : String × Tree) : Tree × Tree := ((Scalar.plain member.1).tree, member.2)

theorem trees_optionsBlock (options : List (String × Given)) (others : Block) :
    (optionsBlock options others).trees = (options.map optionTree).map keyed ++ others.trees := by
  induction options with
  | nil => rfl
  | cons option options ih => exact congrArg (keyed (optionTree option) :: ·) ih

theorem trees_entriesBlock (entries : List (String × String)) :
    (entriesBlock entries).trees = entries.map entryTree := by
  induction entries with
  | nil => rfl
  | cons entry entries ih => exact congrArg (entryTree entry :: ·) ih

theorem trees_consumerBlock (entries : List (String × String)) (others : Block) :
    (consumerBlock entries others).trees = (consumerTrees entries).map keyed ++ others.trees := by
  cases entries with
  | nil => rfl
  | cons entry entries =>
    rw [consumerBlock, if_neg (List.cons_ne_nil _ _), Block.trees, trees_entriesBlock]
    rfl

theorem trees_document (before after : List (String × Given)) (entries : List (String × String)) :
    (document before after entries).trees = (members before after entries).map keyed := by
  rw [document, trees_optionsBlock, trees_consumerBlock, trees_optionsBlock, Block.trees,
    List.append_nil, members, List.map_append, List.map_append]

theorem yamlText?_tree (d : Document) (scalar : Scalar) :
    yamlText? d scalar.tree = some (String.ofList scalar.chars) := rfl

theorem yamlOptions?_keyed (d : Document) (options : List (String × Tree)) :
    yamlOptions? d (options.map keyed) = some options := by
  apply mapM_map_eq_some
  intro option
  simp only [keyed, yamlText?_tree, Scalar.chars, String.ofList_toList]
  rfl

theorem yamlConsumer?_mapping (d : Document) (hEntries : entries.Perm s.consumer.entries) :
    yamlConsumer? d (.mapping (entries.map entryTree)) = some s.consumer := by
  have hPairs : yamlPairs? d (.mapping (entries.map entryTree)) = some (entries.map entryTree) := rfl
  rw [yamlConsumer?, hPairs]
  simp only [Option.bind_eq_bind, Option.bind_some]
  rw [mapM_map_eq_some, Option.bind_some, Table.ofList_of_perm hEntries]
  · rfl
  · intro entry
    simp only [entryTree, yamlText?_tree, Scalar.chars, String.ofList_toList]
    rfl

theorem perm_members (hOptions : (before ++ after).Perm s.given) :
    (members before after entries).Perm (s.given.map optionTree ++ consumerTrees entries) := by
  have hSame := hOptions.map optionTree
  rw [List.map_append] at hSame
  have hMoved : (consumerTrees entries ++ after.map optionTree).Perm
      (after.map optionTree ++ consumerTrees entries) := List.perm_append_comm
  apply (hMoved.append_left _).trans
  rw [← List.append_assoc]
  exact hSame.append_right _

theorem names_optionTrees (s : Settings) :
    (s.given.map optionTree).map Prod.fst = s.given.map Prod.fst := by
  rw [List.map_map]
  rfl

theorem nodup_members (hOptions : (before ++ after).Perm s.given) :
    ((members before after entries).map Prod.fst).Nodup := by
  rw [((perm_members hOptions).map Prod.fst).nodup_iff, List.map_append, names_optionTrees]
  cases entries with
  | nil =>
    rw [consumerTrees, List.map_nil, List.append_nil]
    exact nodup_names_given
  | cons entry entries =>
    apply nodup_names_given.append (List.nodup_singleton consumerKey)
    rw [List.disjoint_singleton]
    intro hName
    exact absurd (names_given_sublist.subset hName) (by decide)

/-! ### Options -/

theorem filter_of_not_mem {options : List (String × Tree)} {name : String}
    (h : name ∉ options.map Prod.fst) : options.filter (·.1 = name) = [] := by
  rw [List.filter_eq_nil_iff]
  intro option hOption hName
  exact h (List.mem_map.mpr ⟨option, hOption, by simpa using hName⟩)

theorem yamlOption?_of_not_mem {options : List (String × Tree)} {name : String}
    (h : name ∉ options.map Prod.fst) : yamlOption? options name = some none := by
  rw [yamlOption?, filter_of_not_mem h]

theorem yamlOption?_of_mem {options : List (String × Tree)} {name : String} {tree : Tree}
    (hNames : (options.map Prod.fst).Nodup) (h : (name, tree) ∈ options) :
    yamlOption? options name = some (some tree) := by
  have hOne : options.filter (·.1 = name) = [(name, tree)] := by
    induction options with
    | nil => cases h
    | cons option options ih =>
      obtain ⟨hNew, hNames⟩ := List.nodup_cons.mp hNames
      rcases List.mem_cons.mp h with rfl | h
      · rw [List.filter_cons_of_pos (by simp), filter_of_not_mem hNew]
      · have hOther : option.1 ≠ name := by
          rintro rfl
          exact hNew (List.mem_map.mpr ⟨_, h, rfl⟩)
        rw [List.filter_cons_of_neg (by simpa using hOther), ih hNames h]
  rw [yamlOption?, hOne]

/-! ### Numbers -/

theorem inBase?_decimal {n : Nat} (h : n < UInt64.size) : inBase? 10 (Text.decimal n) = some n := by
  have hDigit : ∀ d : Fin 10, Json.hexValue? (Text.digitChar d) = some ↑d := by decide
  obtain ⟨c, rest, hText, -⟩ := (Json.isNatural_decimal n).exists_cons
  unfold inBase?
  generalize hFold : (List.foldlM _ 0 (Text.decimal n) : Option Nat) = value?
  obtain rfl : value? = some n := by
    rw [← hFold]
    apply Text.foldlM_decimal
    intro value d hd
    simp [hDigit ⟨d, hd⟩, hd]
  rw [hText]
  exact if_pos h

theorem naturalOf?_decimal {n : Nat} (h : n < UInt64.size) :
    naturalOf? (Text.decimal n) = some n := by
  have hNatural := Json.isNatural_decimal n
  have hUnsigned : unsignedDigits? (Text.decimal n) = some (Text.decimal n) := by
    obtain ⟨c, rest, hText, hc⟩ := hNatural.exists_cons
    have hSigns : c ≠ '+' ∧ c ≠ '-' := by
      constructor
      · rintro rfl
        cases hc
      · rintro rfl
        cases hc
    simp [hText, unsignedDigits?, hSigns]
  have hLeading : ∀ mark rest, Text.decimal n ≠ '0' :: mark :: rest := by
    intro mark rest hText
    have hZero := hNatural.leading (by rw [hText]; rfl)
    rw [hText] at hZero
    cases hZero
  rw [naturalOf?, hUnsigned]
  simp only [Option.bind_eq_bind, Option.bind_some]
  split
  · rename_i hText
    exact absurd hText (hLeading _ _)
  · rename_i hText
    exact absurd hText (hLeading _ _)
  · rename_i hText
    exact absurd hText (hLeading _ _)
  · rename_i hText
    exact absurd hText (hLeading _ _)
  · exact inBase?_decimal h

section Members
variable (d : Document) {name : String}

theorem mem_members (entries : List (String × String)) (hOptions : (before ++ after).Perm s.given)
    {value : Given} (h : (name, value) ∈ s.given) :
    (name, value.scalar.tree) ∈ members before after entries := by
  rw [(perm_members hOptions).mem_iff]
  exact List.mem_append_left _ (List.mem_map.mpr ⟨_, h, rfl⟩)

theorem not_mem_members (hOptions : (before ++ after).Perm s.given) (hName : name ≠ consumerKey)
    (h : ∀ value, (name, value) ∉ s.given) :
    name ∉ (members before after entries).map Prod.fst := by
  rw [((perm_members hOptions).map Prod.fst).mem_iff, List.map_append, names_optionTrees,
    List.mem_append, not_or]
  constructor
  · intro hMem
    obtain ⟨⟨_, value⟩, hGiven, rfl⟩ := List.mem_map.mp hMem
    exact h value hGiven
  · cases entries with
    | nil => exact List.not_mem_nil
    | cons entry entries => exact fun hConsumer => hName (List.mem_singleton.mp hConsumer)

/-- A text option is read back whatever its text, as it is between quotes. -/
theorem yamlField?_text (entries : List (String × String)) (hOptions : (before ++ after).Perm s.given)
    (name : String) (value : Option String) (hName : name ≠ consumerKey)
    (h : ∀ g, (name, g) ∈ s.given ↔ ∃ v, value = some v ∧ g = .text v) :
    yamlField? (members before after entries) name none (yamlOptional? d) = some value := by
  cases value with
  | none =>
    have hAbsent : ∀ g, (name, g) ∉ s.given := by
      intro g hGiven
      obtain ⟨_, hNone, _⟩ := (h g).mp hGiven
      cases hNone
    rw [yamlField?, yamlOption?_of_not_mem (not_mem_members hOptions hName hAbsent)]
    rfl
  | some v =>
    have hMem := mem_members entries hOptions ((h (.text v)).mpr ⟨v, rfl, rfl⟩)
    rw [yamlField?, yamlOption?_of_mem (nodup_members hOptions) hMem]
    show some (some (String.ofList v.toList)) = _
    rw [String.ofList_toList]

theorem yamlTimeout?_tree (n : UInt64) :
    yamlTimeout? d (Given.number n.toNat).scalar.tree = some n := by
  have hText : d.follow (Given.number n.toNat).scalar.tree =
      some (.scalar none .plain (Text.decimal n.toNat)) := by
    show some (Tree.scalar none .plain (String.ofList (Text.decimal n.toNat)).toList) = _
    rw [String.toList_ofList]
  rw [yamlTimeout?, hText]
  simp [naturalOf?_decimal n.toNat_lt]

theorem yamlField?_timeout (entries : List (String × String))
    (hOptions : (before ++ after).Perm s.given) (absent : UInt64) :
    yamlField? (members before after entries) timeoutKey absent (yamlTimeout? d) =
      some s.metadataTimeoutMs := by
  have hMem := mem_members entries hOptions mem_given_timeout
  rw [yamlField?, yamlOption?_of_mem (nodup_members hOptions) hMem]
  exact yamlTimeout?_tree d _

theorem yamlField?_consumer (hOptions : (before ++ after).Perm s.given)
    (hEntries : entries.Perm s.consumer.entries) :
    yamlField? (members before after entries) consumerKey ∅ (yamlConsumer? d) = some s.consumer := by
  cases entries with
  | nil =>
    have hNone : consumerKey ∉ (members before after []).map Prod.fst := by
      rw [((perm_members hOptions).map Prod.fst).mem_iff, List.map_append, names_optionTrees]
      simp only [consumerTrees, List.map_nil, List.append_nil]
      intro hName
      exact absurd (names_given_sublist.subset hName) (by decide)
    have hEmpty : s.consumer = ∅ := (Table.ofList_of_perm hEntries).symm
    rw [yamlField?, yamlOption?_of_not_mem hNone, hEmpty]
    rfl
  | cons entry entries =>
    have hMem : (consumerKey, Tree.mapping ((entry :: entries).map entryTree)) ∈
        members before after (entry :: entries) := by
      rw [(perm_members hOptions).mem_iff]
      exact List.mem_append_right _ (List.mem_singleton.mpr rfl)
    rw [yamlField?, yamlOption?_of_mem (nodup_members hOptions) hMem]
    exact yamlConsumer?_mapping d hEntries

theorem ofYamlDocument?_members (hOptions : (before ++ after).Perm s.given)
    (hEntries : entries.Perm s.consumer.entries)
    (hRoot : yamlPairs? d d.root = some ((members before after entries).map keyed)) :
    ofYamlDocument? d = some s := by
  have hClusters := yamlField?_text d entries hOptions clustersKey s.whiteListedClusters (by decide)
    fun _ => mem_given_clusters_iff
  have hKeySerde := yamlField?_text d entries hOptions keySerdeKey s.defaultKeySerde (by decide)
    fun _ => mem_given_keySerde_iff
  have hValueSerde := yamlField?_text d entries hOptions valueSerdeKey s.defaultValueSerde (by decide)
    fun _ => mem_given_valueSerde_iff
  have hTimeout := yamlField?_timeout d entries hOptions
  have hConsumer := yamlField?_consumer d hOptions hEntries
  rw [ofYamlDocument?, hRoot]
  simp only [Option.bind_eq_bind, Option.bind_some, yamlOptions?_keyed, hClusters, hKeySerde,
    hValueSerde, hTimeout, hConsumer]
  rfl

end Members

theorem ofYaml_eq_ok (h : s.IsBlockWritable) {text : String} (hText : s.IsYaml text) :
    ofYaml text = .ok s := by
  obtain ⟨before, after, entries, hOptions, hEntries, hLines⟩ := hText
  rw [← lines_document] at hLines
  have hParse := (writable_document h hOptions hEntries).parse?_eq (document_ne_done hOptions) hLines
  rw [trees_document] at hParse
  have hSettings := ofYamlDocument?_members
    ⟨.mapping ((members before after entries).map keyed), []⟩ hOptions hEntries rfl
  rw [ofYaml, hParse]
  simp only [hSettings]

/-- Settings written as blocks and settings written as properties are loaded as what they were. -/
theorem yaml_agrees (s : Settings) (h : s.IsBlockWritable) (text : String) (hText : s.IsYaml text) :
    ofYaml text = .ok s ∧ ofProperties s.toProperties = .ok s :=
  ⟨ofYaml_eq_ok h hText, h.ofProperties_eq_ok⟩

/-- Texts that without quotes would be nulls, a number or a comment, a name with a colon, and the
greatest timeout. -/
def lookalike : Settings where
  whiteListedClusters := some "null"
  defaultKeySerde := some "~"
  defaultValueSerde := some ""
  metadataTimeoutMs := 18446744073709551615
  consumer := Table.ofList [("a: b", "123"), ("\"", " # ")]

def lookalikeYaml : String :=
  "defaultKeySerde: \"~\"\nconsumer:\n  \"\\\"\": \" # \"\n  \"a: b\": \"123\"\n" ++
    "metadataTimeoutMs: 18446744073709551615\nwhiteListedClusters: \"null\"\ndefaultValueSerde: \"\"\n"

theorem isBlockWritable_lookalike : lookalike.IsBlockWritable where
  clusters := by
    rintro _ ⟨⟩
    decide
  keySerde := by
    rintro _ ⟨⟩
    decide
  valueSerde := by
    rintro _ ⟨⟩
    decide
  consumer := by decide +kernel
  names := by decide +kernel

theorem isYaml_lookalike : lookalike.IsYaml lookalikeYaml := by
  refine ⟨[(keySerdeKey, .text "~")], [(timeoutKey, .number 18446744073709551615),
    (clustersKey, .text "null"), (valueSerdeKey, .text "")], [("\"", " # "), ("a: b", "123")],
    ?_, ?_, ?_⟩
  · decide +kernel
  · decide +kernel
  · exact Toml.linesText_of_flatMap (by decide +kernel)

theorem yaml_agrees_lookalike :
    (lookalike.IsBlockWritable ∧ lookalike.IsYaml lookalikeYaml) ∧
      ofYaml lookalikeYaml = .ok lookalike ∧ ofProperties lookalike.toProperties = .ok lookalike :=
  ⟨⟨isBlockWritable_lookalike, isYaml_lookalike⟩,
    yaml_agrees lookalike isBlockWritable_lookalike lookalikeYaml isYaml_lookalike⟩

end StreamAdmission.Settings
