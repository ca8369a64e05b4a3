import StreamAdmission.Files
import StreamAdmission.Proofs.Text.Split

/-!
# What cannot be read as text

A text is read exactly where a path leads to a file with its bytes. Nothing is read where a path leads
to a directory or to other bytes, where nothing stands, or below a file.
-/

namespace StreamAdmission

theorem fromUTF8?_eq_some_iff {content : ByteArray} {text : String} :
    String.fromUTF8? content = some text ↔ text.toUTF8 = content := by
  constructor
  · intro h
    unfold String.fromUTF8? at h
    split at h
    · cases h
      rfl
    · cases h
  · intro h
    subst h
    simp only [String.fromUTF8?, String.toUTF8_eq_toByteArray, dif_pos text.isValidUTF8]
    rfl

/-- Why what a path leads to is no text. -/
inductive Unreadable : Except ReadError FileEntry → ReadError → Prop where
  | lost (e : ReadError) : Unreadable (.error e) e
  | directory : Unreadable (.ok .directory) .isDirectory
  | bytes {content : ByteArray} (h : ∀ text : String, text.toUTF8 ≠ content) :
    Unreadable (.ok (.file content)) .notText

variable {found : Except ReadError FileEntry} {e : ReadError} {text : String}

theorem textOf_toUTF8 (text : String) : textOf (.ok (.file text.toUTF8)) = .ok text := by
  rw [textOf, fromUTF8?_eq_some_iff.mpr rfl]

theorem Unreadable.textOf_eq (h : Unreadable found e) : textOf found = .error e := by
  cases h with
  | lost e => rfl
  | directory => rfl
  | @bytes content h =>
    cases hText : String.fromUTF8? content with
    | none => rw [textOf, hText]
    | some text => exact absurd (fromUTF8?_eq_some_iff.mp hText) (h text)

theorem text_or_unreadable (found : Except ReadError FileEntry) :
    (∃ text : String, found = .ok (.file text.toUTF8)) ∨ ∃ e, Unreadable found e := by
  rcases found with e | content | _
  · exact Or.inr ⟨e, .lost e⟩
  · by_cases hText : ∃ text : String, text.toUTF8 = content
    · obtain ⟨text, rfl⟩ := hText
      exact Or.inl ⟨text, rfl⟩
    · exact Or.inr ⟨.notText, .bytes (not_exists.mp hText)⟩
  · exact Or.inr ⟨.isDirectory, .directory⟩

namespace FileTree
variable {tree : FileTree} {content : ByteArray}

theorem followOutside_ne_file {parts : List String} :
    followOutside parts ≠ .ok (.file content) := by
  induction parts with
  | nil => exact nofun
  | cons part parts ih =>
    rw [followOutside]
    split
    · exact ih
    · exact nofun

/-- A path that goes on behind a file leads nowhere. -/
theorem follow_append_of_file {names parts : List String}
    (h : tree.follow names parts = .ok (.file content)) (part : String) (more : List String) :
    tree.follow names (parts ++ part :: more) = .error .notDirectory := by
  induction parts generalizing names with
  | nil =>
    rw [follow] at h
    rw [List.nil_append, follow]
    cases hEntry : tree.find? names with
    | none =>
      rw [hEntry] at h
      cases h
    | some entry =>
      rw [hEntry] at h
      cases h
      rfl
  | cons first parts ih =>
    rw [follow] at h
    rw [List.cons_append, follow]
    cases hEntry : tree.find? names with
    | none =>
      rw [hEntry] at h
      cases h
    | some entry =>
      rw [hEntry] at h
      cases entry with
      | file _ => cases h
      | directory =>
        simp only at h ⊢
        split at h
        · rename_i hStay
          rw [if_pos hStay]
          exact ih h
        · rename_i hMove
          rw [if_neg hMove]
          split at h
          · rename_i hUp
            rw [if_pos hUp]
            split at h
            · exact absurd h followOutside_ne_file
            · exact ih h
          · rename_i hDown
            rw [if_neg hDown]
            split at h
            · cases h
            · rename_i hShort
              rw [if_neg hShort]
              exact ih h

/-- Names without a meaning of their own are looked up as they stand. -/
theorem find?_of_follow {names parts : List String} {entry : FileEntry}
    (hParts : ∀ part ∈ parts, part ≠ "" ∧ part ≠ "." ∧ part ≠ "..")
    (h : tree.follow names parts = .ok entry) : tree.find? (names ++ parts) = some entry := by
  induction parts generalizing names with
  | nil =>
    rw [follow] at h
    rw [List.append_nil]
    cases hEntry : tree.find? names with
    | none =>
      rw [hEntry] at h
      cases h
    | some entry =>
      rw [hEntry] at h
      cases h
      rfl
  | cons part parts ih =>
    obtain ⟨⟨hEmpty, hDot, hUp⟩, hParts⟩ := List.forall_mem_cons.mp hParts
    rw [follow] at h
    cases hEntry : tree.find? names with
    | none =>
      rw [hEntry] at h
      cases h
    | some next =>
      rw [hEntry] at h
      cases next with
      | file _ => cases h
      | directory =>
        simp only [hEmpty, hDot, hUp, or_self, if_false] at h
        split at h
        · cases h
        · have hFound := ih hParts h
          rwa [List.append_assoc] at hFound

theorem pathParts_append (path rest : String) :
    pathParts (path ++ "/" ++ rest) = pathParts path ++ pathParts rest := by
  have hChars : (path ++ "/" ++ rest).toList = path.toList ++ '/' :: rest.toList := by
    rw [String.toList_append, String.toList_append, List.append_assoc]
    rfl
  rw [pathParts, pathParts, pathParts, hChars, Text.splitAll_append_cons, List.map_append]

theorem exists_pathParts (path : String) : ∃ first parts, pathParts path = first :: parts := by
  apply List.exists_cons_of_ne_nil
  intro h
  exact Text.splitAll_ne_nil '/' path.toList (List.map_eq_nil_iff.mp h)

/-- A path without a slash in front is followed from the working directory. -/
theorem lookup_eq_follow {path first : String} {parts : List String} (hFault : pathFault? path = none)
    (hParts : pathParts path = first :: parts) (hFirst : first ≠ "") :
    tree.lookup path = tree.follow [] (first :: parts) := by
  rw [lookup, hFault]
  simp only [hParts]
  split
  · rename_i h
    exact absurd (List.cons.inj h).1 hFirst
  · rename_i h
    exact absurd (List.cons.inj h).1 hFirst
  · rfl

theorem exists_follow_of_file {path : String} (h : tree.lookup path = .ok (.file content)) :
    ∃ first parts, pathParts path = first :: parts ∧ first ≠ "" ∧
      tree.follow [] (first :: parts) = .ok (.file content) := by
  obtain ⟨first, parts, hParts⟩ := exists_pathParts path
  refine ⟨first, parts, hParts, ?_⟩
  by_cases hFirst : first = ""
  · rw [lookup, hParts, hFirst] at h
    split at h
    · cases h
    · split at h
      · cases h
      · exact absurd h followOutside_ne_file
      · rename_i hOther
        exact absurd rfl (hOther parts)
  · refine ⟨hFirst, ?_⟩
    cases hFault : pathFault? path with
    | some e =>
      rw [lookup, hFault] at h
      cases h
    | none => rwa [lookup_eq_follow hFault hParts hFirst] at h

theorem lookup_below_file {path : String} (h : tree.lookup path = .ok (.file content))
    (rest : String) : ∃ e, tree.lookup (path ++ "/" ++ rest) = .error e := by
  obtain ⟨first, parts, hParts, hFirst, hFollow⟩ := exists_follow_of_file h
  obtain ⟨next, more, hRest⟩ := exists_pathParts rest
  cases hFault : pathFault? (path ++ "/" ++ rest) with
  | some e => exact ⟨e, by rw [lookup, hFault]⟩
  | none =>
    have hWhole : pathParts (path ++ "/" ++ rest) = first :: (parts ++ next :: more) := by
      rw [pathParts_append, hParts, hRest]
      rfl
    refine ⟨.notDirectory, ?_⟩
    rw [lookup_eq_follow hFault hWhole hFirst]
    exact follow_append_of_file hFollow next more

theorem lookup_missing {path : String}
    (hPlain : ∀ part ∈ pathParts path, part ≠ "" ∧ part ≠ "." ∧ part ≠ "..")
    (h : tree.find? (pathParts path) = none) : ∃ e, tree.lookup path = .error e := by
  obtain ⟨first, parts, hParts⟩ := exists_pathParts path
  rw [hParts] at hPlain h
  cases hFault : pathFault? path with
  | some e => exact ⟨e, by rw [lookup, hFault]⟩
  | none =>
    rw [lookup_eq_follow hFault hParts (hPlain first List.mem_cons_self).1]
    cases hFollow : tree.follow [] (first :: parts) with
    | error e => exact ⟨e, rfl⟩
    | ok entry =>
      have hFound := find?_of_follow hPlain hFollow
      rw [List.nil_append, h] at hFound
      cases hFound

/-- A path that no text can be read from: nothing stands there, or a directory, or bytes that are no
text, or it goes on below a file. -/
inductive Obstructed (tree : FileTree) : String → Prop where
  | missing {path : String} (plain : ∀ part ∈ pathParts path, part ≠ "" ∧ part ≠ "." ∧ part ≠ "..")
    (h : tree.find? (pathParts path) = none) : Obstructed tree path
  | directory {path : String} (h : tree.lookup path = .ok .directory) : Obstructed tree path
  | below {path : String} {content : ByteArray} (h : tree.lookup path = .ok (.file content))
    (rest : String) : Obstructed tree (path ++ "/" ++ rest)
  | bytes {path : String} {content : ByteArray} (h : tree.lookup path = .ok (.file content))
    (noText : ∀ text : String, text.toUTF8 ≠ content) : Obstructed tree path

theorem Obstructed.exists_unreadable {path : String} (h : tree.Obstructed path) :
    ∃ e, Unreadable (tree.lookup path) e := by
  cases h with
  | missing plain h =>
    obtain ⟨e, he⟩ := lookup_missing plain h
    exact ⟨e, he ▸ .lost e⟩
  | directory h => exact ⟨.isDirectory, h ▸ .directory⟩
  | below h rest =>
    obtain ⟨e, he⟩ := lookup_below_file h rest
    exact ⟨e, he ▸ .lost e⟩
  | bytes h noText => exact ⟨.notText, h ▸ .bytes noText⟩

end FileTree

end StreamAdmission
