import StreamAdmission.Proofs.Files
import StreamAdmission.Settings.File

/-!
# Which reader a settings file gets

A settings file is read before its name is looked at. Then the extension of the last part of the path
decides: it stands behind the last dot of a name that does not start with this dot, and has to be
written exactly as one of the known ones.
-/

namespace StreamAdmission.Settings

open Text

/-! ### Extensions -/

/-- The last of the parts between slashes, empty ones and single dots at the end apart. -/
def IsLastPart (path name : List Char) : Prop :=
  ∃ before after, path = join ['/'] (before ++ name :: after) ∧
    (∀ part ∈ before ++ name :: after, '/' ∉ part) ∧
    (∀ part ∈ after, part = [] ∨ part = ['.']) ∧ ¬ (name = [] ∨ name = ['.'])

/-- What stands behind the last dot, if something stands in front of it. -/
def IsExtension (name extension : List Char) : Prop :=
  name ≠ ['.', '.'] ∧ '.' ∉ extension ∧ ∃ stem, stem ≠ [] ∧ name = stem ++ '.' :: extension

def HasExtension (path extension : String) : Prop :=
  ∃ name, IsLastPart path.toList name ∧ IsExtension name extension.toList

theorem isLastPart_iff {path name : List Char} :
    IsLastPart path name ↔ ∃ before, (splitAll '/' path).reverse.dropWhile
      (fun part => part = [] ∨ part = ['.']) = name :: before := by
  constructor
  · intro h
    obtain ⟨before, after, rfl, hFree, hAfter, hName⟩ := h
    refine ⟨before.reverse, ?_⟩
    rw [splitAll_join (by simp) hFree, List.reverse_append, List.reverse_cons, List.append_assoc,
      List.dropWhile_append_of_pos, List.singleton_append, List.dropWhile_cons_of_neg]
    · simpa using hName
    · intro part hPart
      simpa using hAfter part (List.mem_reverse.mp hPart)
  · intro h
    obtain ⟨before, hDrop⟩ := h
    let isEmpty : List Char → Bool := fun part => part = [] ∨ part = ['.']
    have hParts : splitAll '/' path =
        before.reverse ++ name :: ((splitAll '/' path).reverse.takeWhile isEmpty).reverse := by
      have hWhole := congrArg List.reverse
        (List.takeWhile_append_dropWhile (p := isEmpty) (l := (splitAll '/' path).reverse))
      rw [hDrop] at hWhole
      simpa using hWhole.symm
    refine ⟨before.reverse, ((splitAll '/' path).reverse.takeWhile isEmpty).reverse, ?_, ?_, ?_, ?_⟩
    · rw [← hParts, join_splitAll]
    · rw [← hParts]
      exact fun part hPart => not_mem_of_mem_splitAll hPart
    · intro part hPart
      simpa [isEmpty] using List.all_eq_true.mp List.all_takeWhile part (List.mem_reverse.mp hPart)
    · have hHead := List.head?_dropWhile_not isEmpty (splitAll '/' path).reverse
      rw [hDrop] at hHead
      simpa [isEmpty] using hHead

theorem fileName?_eq_some_iff {path name : List Char} :
    fileName? path = some name ↔ IsLastPart path name ∧ name ≠ ['.', '.'] := by
  rw [isLastPart_iff, fileName?]
  cases (splitAll '/' path).reverse.dropWhile fun part => part = [] ∨ part = ['.'] with
  | nil => simp
  | cons part before =>
    by_cases hUp : part = ['.', '.']
    · simp [hUp, eq_comm]
    · simp only [if_neg hUp, Option.some.injEq, List.cons.injEq, exists_and_left, exists_eq',
        and_true]
      constructor
      · intro h
        exact ⟨h, h ▸ hUp⟩
      · exact And.left

theorem extensionOf?_eq_some_iff {name extension : List Char} (hUp : name ≠ ['.', '.']) :
    extensionOf? name = some extension ↔ IsExtension name extension := by
  rw [extensionOf?]
  constructor
  · intro h
    split at h
    · rename_i c before after hSplit
      cases h
      obtain ⟨hName, hFree⟩ := splitLast?_eq_some_iff.mp hSplit
      exact ⟨hUp, hFree, c :: before, List.cons_ne_nil _ _, hName⟩
    · cases h
  · intro h
    obtain ⟨_, hFree, stem, hStem, hName⟩ := h
    obtain ⟨c, before, rfl⟩ := List.exists_cons_of_ne_nil hStem
    rw [splitLast?_eq_some_iff.mpr ⟨hName, hFree⟩]

theorem extension_eq_some_iff {path extension : String} :
    (fileName? path.toList).bind extensionOf? = some extension.toList ↔
      HasExtension path extension := by
  rw [Option.bind_eq_some_iff, HasExtension]
  apply exists_congr
  intro name
  rw [fileName?_eq_some_iff]
  constructor
  · intro h
    obtain ⟨⟨hLast, hUp⟩, hExtension⟩ := h
    exact ⟨hLast, (extensionOf?_eq_some_iff hUp).mp hExtension⟩
  · intro h
    obtain ⟨hLast, hExtension⟩ := h
    exact ⟨⟨hLast, hExtension.1⟩, (extensionOf?_eq_some_iff hExtension.1).mpr hExtension⟩

instance {path extension : String} : Decidable (HasExtension path extension) :=
  decidable_of_iff _ extension_eq_some_iff

/-! ### Readers -/

theorem formatOf?_toml {path : String} (h : HasExtension path "toml") :
    formatOf? path = some .toml := by
  rw [formatOf?, extension_eq_some_iff.mpr h]
  exact if_pos rfl

theorem formatOf?_yaml {path : String} (h : HasExtension path "yaml" ∨ HasExtension path "yml") :
    formatOf? path = some .yaml := by
  rcases h with h | h
  · rw [formatOf?, extension_eq_some_iff.mpr h]
    rfl
  · rw [formatOf?, extension_eq_some_iff.mpr h]
    rfl

theorem formatOf?_eq_none {path : String} (hToml : ¬ HasExtension path "toml")
    (hYaml : ¬ (HasExtension path "yaml" ∨ HasExtension path "yml")) : formatOf? path = none := by
  obtain ⟨hYaml, hYml⟩ := not_or.mp hYaml
  rw [← extension_eq_some_iff] at hToml hYaml hYml
  rw [formatOf?]
  cases hExtension : (fileName? path.toList).bind extensionOf? with
  | none => rfl
  | some extension =>
    rw [hExtension, Option.some.injEq] at hToml hYaml hYml
    simp only [if_neg hToml, if_neg (not_or.mpr ⟨hYaml, hYml⟩)]

variable {files : String → Except ReadError FileEntry} {path text : String}

theorem ofFile_unreadable {e : ReadError} (h : Unreadable (files path) e) :
    ofFile (fun path => textOf (files path)) path = .error (.unreadable path e) := by
  rw [ofFile, h.textOf_eq]

theorem ofFile_text (h : files path = .ok (.file text.toUTF8)) :
    ofFile (fun path => textOf (files path)) path = ofText path text := by
  rw [ofFile, h, textOf_toUTF8]

/-- A file is read before its name is looked at. Of what a path leads to, only the bytes of a text are
read, whatever its name; then the extension alone chooses between the two readers. -/
theorem ofFile_dispatched (files : String → Except ReadError FileEntry) (path : String) :
    ((∀ text : String, files path ≠ .ok (.file text.toUTF8)) → ∃ e, Unreadable (files path) e ∧
      ofFile (fun path => textOf (files path)) path = .error (.unreadable path e)) ∧
    (∀ text : String, files path = .ok (.file text.toUTF8) →
      (HasExtension path "toml" →
        ofFile (fun path => textOf (files path)) path = ofToml text) ∧
      (HasExtension path "yaml" ∨ HasExtension path "yml" →
        ofFile (fun path => textOf (files path)) path = ofYaml text) ∧
      (¬ (HasExtension path "toml" ∨ HasExtension path "yaml" ∨ HasExtension path "yml") →
        ofFile (fun path => textOf (files path)) path = .error (.unsupportedFormat path))) ∧
    ∀ tree : FileTree, tree.Obstructed path →
      ∃ e, ofFile tree.read path = .error (.unreadable path e) := by
  refine ⟨?_, ?_, ?_⟩
  · intro hNoText
    rcases text_or_unreadable (files path) with ⟨text, hText⟩ | ⟨e, hUnreadable⟩
    · exact absurd hText (hNoText text)
    · exact ⟨e, hUnreadable, ofFile_unreadable hUnreadable⟩
  · intro text hText
    rw [ofFile_text hText, ofText]
    refine ⟨?_, ?_, ?_⟩
    · intro hToml
      rw [formatOf?_toml hToml]
    · intro hYaml
      rw [formatOf?_yaml hYaml]
    · intro hOther
      obtain ⟨hToml, hYaml⟩ := not_or.mp hOther
      rw [formatOf?_eq_none hToml hYaml]
  · intro tree hObstructed
    obtain ⟨e, hUnreadable⟩ := hObstructed.exists_unreadable
    exact ⟨e, ofFile_unreadable hUnreadable⟩

/-- The same settings under several names, and a name below them, a directory and a byte that starts no
character. -/
def drawer : FileTree :=
  let written := FileEntry.file "whiteListedClusters: ~\n".toUTF8
  .ofPaths [("a.toml", written), ("a.toml.yml", written), ("conf.d/a.yaml", written),
    (".toml", written), ("toml", written), ("a.TOML", written), ("a.toml.bak", written),
    ("a.", written), ("b.yaml", .directory), ("c.toml", .file ⟨#[0xff]⟩)]

/-- Only what stands behind the last dot of the last name counts, and nothing else tells a format. -/
theorem ofFile_dispatched_drawer :
    let text := "whiteListedClusters: ~\n"
    ofFile drawer.read "a.toml" = ofToml text ∧
    (∀ path ∈ ["a.toml.yml", "conf.d/a.yaml", "./conf.d//a.yaml"],
      ofFile drawer.read path = ofYaml text) ∧
    (∀ path ∈ [".toml", "toml", "a.TOML", "a.toml.bak", "a.", "b.yaml/../.toml"],
      ofFile drawer.read path = .error (.unsupportedFormat path)) ∧
    ∀ path ∈ ["a.toml/b.yaml", "b.yaml", "c.toml", "lost.toml"],
      ∃ e, ofFile drawer.read path = .error (.unreadable path e) := by
  intro text
  have hDispatched := fun path => ofFile_dispatched drawer.lookup path
  have hBytes : ∀ text : String, drawer.lookup "c.toml" ≠ .ok (.file text.toUTF8) := by
    intro text hText
    have hNone : String.fromUTF8? ⟨#[0xff]⟩ = none := by decide
    have hFound : drawer.lookup "c.toml" = .ok (.file ⟨#[0xff]⟩) := rfl
    rw [hFound, Except.ok.injEq, FileEntry.file.injEq, eq_comm, ← fromUTF8?_eq_some_iff,
      hNone] at hText
    cases hText
  refine ⟨?_, ?_, ?_, ?_⟩
  · exact ((hDispatched "a.toml").2.1 text rfl).1 (by decide)
  · simp only [List.forall_mem_cons, List.not_mem_nil]
    refine ⟨?_, ?_, ?_, nofun⟩
    · exact ((hDispatched _).2.1 text rfl).2.1 (by decide)
    · exact ((hDispatched _).2.1 text rfl).2.1 (by decide)
    · exact ((hDispatched _).2.1 text rfl).2.1 (by decide)
  · intro path hPath
    have hOther : ¬ (HasExtension path "toml" ∨ HasExtension path "yaml" ∨
        HasExtension path "yml") := by
      revert path
      decide
    have hFound : drawer.lookup path = .ok (.file text.toUTF8) := by
      simp only [List.mem_cons, List.not_mem_nil, or_false] at hPath
      rcases hPath with rfl | rfl | rfl | rfl | rfl | rfl <;> rfl
    exact ((hDispatched path).2.1 text hFound).2.2 hOther
  · simp only [List.forall_mem_cons, List.not_mem_nil]
    refine ⟨?_, ?_, ?_, ?_, nofun⟩
    · exact (hDispatched "a.toml/b.yaml").2.2 drawer
        (@FileTree.Obstructed.below _ "a.toml" text.toUTF8 rfl "b.yaml")
    · exact (hDispatched _).2.2 drawer (.directory rfl)
    · obtain ⟨e, _, he⟩ := (hDispatched "c.toml").1 hBytes
      exact ⟨e, he⟩
    · exact (hDispatched _).2.2 drawer (.missing (by decide) (by decide))

end StreamAdmission.Settings
