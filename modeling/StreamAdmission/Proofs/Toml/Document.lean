import Mathlib.Data.List.Nodup
import StreamAdmission.Proofs.Toml.Entry

/-!
# TOML documents line by line

A document of entries under no header, followed by one table with a bare name and its entries. Each
line is read by itself, and the tree has the entries in the order of their lines.
-/

namespace StreamAdmission.Toml

/-! ### Members of a tree -/

theorem find?_eq_none_iff {name : String} {members : Members} :
    find? name members = none ↔ name ∉ members.map Prod.fst := by
  induction members with
  | nil => simp [find?]
  | cons member members ih =>
    rw [find?, List.map_cons, List.mem_cons, not_or, ← ih]
    split
    · rename_i hSame
      simp [hSame]
    · rename_i hOther
      simp [Ne.symm hOther]

theorem find?_eq_some_of_mem {name : String} {node : Node} {members : Members}
    (hNames : (members.map Prod.fst).Nodup) (h : (name, node) ∈ members) :
    find? name members = some node := by
  induction members with
  | nil => cases h
  | cons member members ih =>
    obtain ⟨hNew, hNames⟩ := List.nodup_cons.mp hNames
    rw [find?]
    rcases List.mem_cons.mp h with rfl | h
    · exact if_pos rfl
    · rw [if_neg, ih hNames h]
      intro hSame
      exact hNew (List.mem_map.mpr ⟨_, h, hSame.symm⟩)

theorem put_of_not_mem {name : String} {members : Members} (h : name ∉ members.map Prod.fst)
    (node : Node) : put name node members = members ++ [(name, node)] := by
  induction members with
  | nil => rfl
  | cons member members ih =>
    rw [List.map_cons, List.mem_cons, not_or] at h
    rw [put, if_neg (Ne.symm h.1), ih h.2]
    rfl

/-- The entry with a name and nothing else in its key. -/
def leaf (member : String × Node) : Entry := ⟨[], member.1, member.2⟩

/-- Entries with new names go behind what is there. -/
theorem enterAll_leaves {added members : Members} (h : ((members ++ added).map Prod.fst).Nodup) :
    enterAll (added.map leaf) members = some (members ++ added) := by
  induction added generalizing members with
  | nil => simp [enterAll]
  | cons member added ih =>
    have hSplit : members ++ member :: added = members ++ [member] ++ added := by simp
    rw [hSplit] at h ⊢
    have hNew : member.1 ∉ members.map Prod.fst := by
      rw [List.map_append, List.map_append] at h
      have hFront := (List.nodup_append.mp h).1
      intro hMem
      exact (List.nodup_append.mp hFront).2.2 _ hMem _ (by simp) rfl
    have hEnter : enterEntry members (leaf member) = some (members ++ [member]) := by
      rw [enterEntry]
      simp only [leaf, enter, find?_eq_none_iff.mpr hNew, put_of_not_mem hNew]
    have hOthers := ih h
    rw [enterAll] at hOthers ⊢
    rw [List.map_cons, List.foldlM_cons, hEnter]
    exact hOthers

/-- The tree of a document with entries at its top and one table below them. -/
theorem treeOf?_table {top inner : Members} {name : String} (hTop : (top.map Prod.fst).Nodup)
    (hInner : (inner.map Prod.fst).Nodup) (hName : name ∉ top.map Prod.fst) :
    treeOf? [⟨.root, top.map leaf⟩, ⟨.table [] name, inner.map leaf⟩] =
      some (top ++ [(name, .table .defined inner)]) := by
  have hRoot : enterAll (top.map leaf) [] = some top := enterAll_leaves hTop
  have hTable : enterAll (inner.map leaf) [] = some inner := enterAll_leaves hInner
  simp only [treeOf?, List.foldlM_cons, List.foldlM_nil, enterSection, hRoot, hTable,
    Option.bind_eq_bind, Option.bind_some, changeAt, find?_eq_none_iff.mpr hName,
    put_of_not_mem hName]
  rfl

/-! ### Lines -/

/-- The text has these lines; the last one may lack its line end. -/
inductive LinesText : List (List Char) → List Char → Prop where
  | nil : LinesText [] []
  | last (line : List Char) : LinesText [line] line
  | more {lines : List (List Char)} {rest : List Char} (line : List Char)
    (h : LinesText lines rest) : LinesText (line :: lines) (line ++ '\n' :: rest)

theorem linesText_of_flatMap {lines : List (List Char)} {text : List Char}
    (h : lines.flatMap (· ++ ['\n']) = text) : LinesText lines text := by
  induction lines generalizing text with
  | nil =>
    rw [← h]
    exact .nil
  | cons line lines ih =>
    rw [List.flatMap_cons, List.append_assoc] at h
    rw [← h]
    exact .more line (ih rfl)

theorem LinesText.exists_rest {line text : List Char} {lines : List (List Char)}
    (h : LinesText (line :: lines) text) : ∃ rest behind, text = line ++ rest ∧ EndsLine rest ∧
      skipLineEnd? rest = some behind ∧ LinesText lines behind := by
  cases h with
  | last => exact ⟨[], [], (List.append_nil line).symm, Or.inl rfl, rfl, .nil⟩
  | @more _ behind _ h => exact ⟨'\n' :: behind, behind, rfl, Or.inr ⟨behind, rfl⟩, rfl, h⟩

theorem LinesText.length_le {lines : List (List Char)} {text : List Char} (h : LinesText lines text)
    (hLines : ∀ line ∈ lines, line ≠ []) : lines.length ≤ text.length := by
  induction h with
  | nil => exact Nat.le_refl 0
  | last line => exact List.length_pos_iff.mpr (hLines line List.mem_cons_self)
  | more line _ ih =>
    have hRest := ih fun line hLine => hLines line (List.mem_cons_of_mem _ hLine)
    simp only [List.length_cons, List.length_append]
    omega

/-- The line opens the table of a bare name. -/
def headerLine (name : String) : List Char := '[' :: (name.toList ++ [']'])

theorem readSections_entry {line rest behind : List Char} {entry : Entry}
    (h : ReadsEntry line entry) (hRest : EndsLine rest) (hEnd : skipLineEnd? rest = some behind)
    (steps : Nat) (header : Header) (entries : List Entry) :
    readSections (steps + 1) header entries (line ++ rest) =
      readSections steps header (entry :: entries) behind := by
  obtain ⟨c, others, rfl, hc⟩ := h.starts
  have hRead := h.reads (depthLimit - 1) rest hRest
  rw [List.cons_append] at hRead ⊢
  rw [readSections, skipSpace_cons (isSpace_eq_false hc)]
  simp only [List.mem_cons, List.not_mem_nil, or_false, not_or] at hc
  split
  · rename_i hText
    cases hText
  · rename_i hText
    exact absurd (List.cons.inj hText).1 hc.2.2.2.2.1
  · rename_i hText
    exact absurd (List.cons.inj hText).1 hc.2.2.1
  · rename_i hText
    exact absurd (List.cons.inj hText).1 hc.2.2.2.1
  · rename_i hText
    exact absurd (List.cons.inj hText).1 hc.2.2.2.2.2.1
  · simp only [hRead, hEnd, Option.bind_eq_bind, Option.bind_some]

theorem readSections_header {name : String} {rest behind : List Char}
    (h : KeyText name.toList name) (hEnd : skipLineEnd? rest = some behind) (steps : Nat)
    (header : Header) (entries : List Entry) :
    readSections (steps + 1) header entries (headerLine name ++ rest) =
      (readSections steps (.table [] name) [] behind).map (⟨header, entries.reverse⟩ :: ·) := by
  have hKey : readKey (name.toList ++ ([] ++ ']' :: rest)) = some (([], name), ']' :: rest) :=
    h.readKey_append (List.forall_mem_nil _) (by decide) (by decide) (by decide) rest
  obtain ⟨c, others, hName, hc⟩ := h.exists_cons
  have hHeader : readHeader (name.toList ++ ']' :: rest) = some (.table [] name, rest) := by
    rw [List.nil_append, hName, List.cons_append] at hKey
    rw [hName, List.cons_append, readHeader, hKey]
    · rfl
    · rintro _ hText
      simp [(List.cons.inj hText).1] at hc
  have hOpening : skipSpace (headerLine name ++ rest) = '[' :: (name.toList ++ ']' :: rest) := by
    rw [headerLine, List.cons_append, List.append_assoc]
    exact skipSpace_cons rfl _
  rw [readSections, hOpening]
  simp only [hHeader, hEnd, Option.bind_eq_bind, Option.bind_some]
  cases readSections steps (.table [] name) [] behind <;> rfl

theorem readSections_entries {lines : List (List Char)} {entries : List Entry}
    (hLines : List.Forall₂ ReadsEntry lines entries) {text : List Char}
    (hText : LinesText lines text) {steps : Nat} (hSteps : lines.length < steps) (header : Header)
    (before : List Entry) :
    readSections steps header before text = some [⟨header, before.reverse ++ entries⟩] := by
  induction hLines generalizing text steps before with
  | nil =>
    obtain ⟨steps, rfl⟩ : ∃ s, steps = s + 1 := ⟨steps - 1, by simp at hSteps; omega⟩
    cases hText
    rw [List.append_nil]
    rfl
  | @cons line entry lines entries hLine _ ih =>
    obtain ⟨steps, rfl⟩ : ∃ s, steps = s + 1 := ⟨steps - 1, by simp at hSteps; omega⟩
    obtain ⟨rest, behind, rfl, hRest, hEnd, hBehind⟩ := hText.exists_rest
    have hFewer : lines.length < steps := by simpa using hSteps
    rw [readSections_entry hLine hRest hEnd, ih hBehind hFewer]
    simp

/-- Entries, a header, and entries again give two sections. -/
theorem readSections_table {lines below : List (List Char)} {entries inner : List Entry}
    {name : String} (hLines : List.Forall₂ ReadsEntry lines entries)
    (hBelow : List.Forall₂ ReadsEntry below inner) (hName : KeyText name.toList name)
    {text : List Char} (hText : LinesText (lines ++ headerLine name :: below) text) {steps : Nat}
    (hSteps : (lines ++ headerLine name :: below).length < steps) (header : Header)
    (before : List Entry) :
    readSections steps header before text =
      some [⟨header, before.reverse ++ entries⟩, ⟨.table [] name, inner⟩] := by
  induction hLines generalizing text steps before with
  | nil =>
    obtain ⟨steps, rfl⟩ : ∃ s, steps = s + 1 := ⟨steps - 1, by simp at hSteps; omega⟩
    obtain ⟨rest, behind, rfl, -, hEnd, hBehind⟩ := hText.exists_rest
    have hFewer : below.length < steps := by simpa using hSteps
    rw [readSections_header hName hEnd, readSections_entries hBelow hBehind hFewer]
    simp
  | @cons line entry lines entries hLine _ ih =>
    obtain ⟨steps, rfl⟩ : ∃ s, steps = s + 1 := ⟨steps - 1, by simp at hSteps; omega⟩
    obtain ⟨rest, behind, rfl, hRest, hEnd, hBehind⟩ := hText.exists_rest
    have hFewer : (lines ++ headerLine name :: below).length < steps := by simpa using hSteps
    rw [readSections_entry hLine hRest hEnd, ih hBehind hFewer]
    simp

theorem length_lt_of_lines {lines below : List (List Char)} {entries inner : List Entry}
    {name : String} (hLines : List.Forall₂ ReadsEntry lines entries)
    (hBelow : List.Forall₂ ReadsEntry below inner) {text : List Char}
    (hText : LinesText (lines ++ headerLine name :: below) text) :
    (lines ++ headerLine name :: below).length < text.length + 1 := by
  have hEntry : ∀ {lines : List (List Char)} {entries : List Entry},
      List.Forall₂ ReadsEntry lines entries → ∀ line ∈ lines, line ≠ [] := by
    intro lines entries h
    induction h with
    | nil => exact fun _ hLine => absurd hLine List.not_mem_nil
    | cons hLine _ ih =>
      obtain ⟨c, rest, rfl, _⟩ := hLine.starts
      exact List.forall_mem_cons.mpr ⟨List.cons_ne_nil c rest, ih⟩
  refine Nat.lt_succ_of_le (hText.length_le ?_)
  intro line hLine
  rcases List.mem_append.mp hLine with hLine | hLine
  · exact hEntry hLines line hLine
  · rcases List.mem_cons.mp hLine with rfl | hLine
    · exact List.cons_ne_nil _ _
    · exact hEntry hBelow line hLine

theorem exists_first {lines below : List (List Char)} {entries : List Entry} {name : String}
    (hLines : List.Forall₂ ReadsEntry lines entries) {text : List Char}
    (hText : LinesText (lines ++ headerLine name :: below) text) :
    ∃ c rest, text = c :: rest ∧ c ≠ '\ufeff' := by
  cases hLines with
  | nil =>
    obtain ⟨rest, _, rfl, _⟩ := hText.exists_rest
    exact ⟨'[', _, rfl, by decide⟩
  | cons hLine _ =>
    obtain ⟨rest, _, rfl, _⟩ := hText.exists_rest
    obtain ⟨c, others, rfl, hc⟩ := hLine.starts
    refine ⟨c, _, rfl, ?_⟩
    rintro rfl
    simp at hc

/-- The mark that may stand before a document is no part of its first line. -/
theorem parse?_of_first {text : String} {c : Char} {rest : List Char}
    (hText : text.toList = c :: rest) (hc : c ≠ '\ufeff') :
    parse? text = (readSections (text.toList.length + 1) .root [] text.toList).bind treeOf? := by
  rw [parse?]
  split
  · rename_i hMark
    rw [hText] at hMark
    exact absurd (List.cons.inj hMark).1 hc
  · rfl

/-- Entries, and a table with entries below them, are the document with these members. -/
theorem parse?_table {lines below : List (List Char)} {top inner : Members} {name : String}
    (hLines : List.Forall₂ ReadsEntry lines (top.map leaf))
    (hBelow : List.Forall₂ ReadsEntry below (inner.map leaf)) (hKey : KeyText name.toList name)
    (hTop : (top.map Prod.fst).Nodup) (hInner : (inner.map Prod.fst).Nodup)
    (hName : name ∉ top.map Prod.fst) {text : String}
    (hText : LinesText (lines ++ headerLine name :: below) text.toList) :
    parse? text = some (top ++ [(name, .table .defined inner)]) := by
  obtain ⟨c, rest, hWhole, hc⟩ := exists_first hLines hText
  rw [parse?_of_first hWhole hc, readSections_table hLines hBelow hKey hText
    (length_lt_of_lines hLines hBelow hText)]
  exact treeOf?_table hTop hInner hName

end StreamAdmission.Toml
