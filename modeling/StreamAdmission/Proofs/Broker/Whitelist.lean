import Mathlib.Data.List.Sort
import StreamAdmission.Broker.Whitelist
import StreamAdmission.Proofs.Broker.Grammar

/-!
# Whitelists as sets

A whitelist made from a list of endpoints is the set of them: it holds each once and in order, so it
is determined by its members. A setting that can be read gives the set of the endpoints that its
entries spell, and a blank setting has no entries.
-/

namespace StreamAdmission

open Text

namespace Whitelist

theorem mem_ofList {e : Endpoint} {endpoints : List Endpoint} :
    e ∈ (ofList endpoints).endpoints ↔ e ∈ endpoints := by
  rw [ofList]
  induction endpoints with
  | nil => rfl
  | cons first rest ih => rw [List.foldr_cons, insert, Endpoint.mem_insertNew, ih, List.mem_cons]

theorem eq_of_mem_iff {w w' : Whitelist} (h : ∀ e, e ∈ w.endpoints ↔ e ∈ w'.endpoints) : w = w' :=
  Whitelist.ext (w.ascending.eq_of_mem_iff w'.ascending h)

theorem ofList_congr {l l' : List Endpoint} (h : ∀ e, e ∈ l ↔ e ∈ l') : ofList l = ofList l' := by
  apply eq_of_mem_iff
  intro e
  rw [mem_ofList, mem_ofList, h]

/-- The entries of a setting, with commas between them; a blank setting has none. -/
def entries (setting : String) : List (List Char) :=
  if IsBlankText setting.toList then [] else splitAll ',' setting.toList

theorem entries_eq_nil_iff {setting : String} :
    entries setting = [] ↔ IsBlankText setting.toList := by
  unfold entries
  split
  · rename_i hBlank
    exact iff_of_true rfl hBlank
  · rename_i hBlank
    exact iff_of_false (splitAll_ne_nil ',' setting.toList) hBlank

theorem ofSetting_of_isBlankText {setting : String} (h : IsBlankText setting.toList) :
    ofSetting (some setting) = .ok unrestricted := by
  simp only [ofSetting, if_pos (trim_eq_nil_iff.mpr h)]

theorem forall₂_spells_trim {text : List Char} {endpoints : List Endpoint} :
    List.Forall₂ Endpoint.Spells (splitAll ',' (trim text)) endpoints ↔
      List.Forall₂ Endpoint.Spells (splitAll ',' text) endpoints := by
  have hTrim : ∀ {l : List (List Char)},
      List.Forall₂ Endpoint.Spells (l.map trim) endpoints ↔
        List.Forall₂ Endpoint.Spells l endpoints := by
    intro l
    rw [List.forall₂_map_left_iff]
    have hEntry : ∀ entry e, Endpoint.Spells (trim entry) e ↔ Endpoint.Spells entry e := by
      intro entry e
      have hSpaced : Endpoint.Respaced (trim entry) entry := .ends (trim_trim entry)
      exact ⟨hSpaced.spells, hSpaced.symm.spells⟩
    simp only [hEntry]
  rw [← hTrim, map_trim_splitAll_trim (by decide), hTrim]

theorem ofSetting_eq_ok_iff_readList {setting : String} {w : Whitelist}
    (h : ¬ IsBlankText setting.toList) :
    ofSetting (some setting) = .ok w ↔
      ∃ brokers, Endpoint.readList (trim setting.toList) = .ok brokers ∧ w = ofList brokers := by
  have hText : trim setting.toList ≠ [] := mt trim_eq_nil_iff.mp h
  simp only [ofSetting, if_neg hText, map_eq_ok_iff, Endpoint.parseList_eq_ok_iff,
    String.toList_ofList, @eq_comm _ w]

theorem ofSetting_eq_ok_iff {setting : String} {w : Whitelist} :
    ofSetting (some setting) = .ok w ↔
      ∃ endpoints, List.Forall₂ Endpoint.Spells (entries setting) endpoints ∧
        w = ofList endpoints := by
  by_cases hBlank : IsBlankText setting.toList
  · rw [ofSetting_of_isBlankText hBlank, entries, if_pos hBlank]
    constructor
    · intro h
      exact ⟨[], .nil, (Except.ok.inj h).symm⟩
    · rintro ⟨endpoints, hEntries, rfl⟩
      cases hEntries
      rfl
  · rw [ofSetting_eq_ok_iff_readList hBlank, entries, if_neg hBlank]
    have hSorted : ∀ endpoints, ofList (Endpoint.sort endpoints) = ofList endpoints :=
      fun endpoints => ofList_congr fun _ => (Endpoint.sort_perm endpoints).mem_iff
    constructor
    · rintro ⟨brokers, hRead, rfl⟩
      obtain ⟨endpoints, hEntries, rfl⟩ := Endpoint.readList_eq_ok_iff.mp hRead
      exact ⟨endpoints, forall₂_spells_trim.mp hEntries, hSorted endpoints⟩
    · rintro ⟨endpoints, hEntries, rfl⟩
      refine ⟨Endpoint.sort endpoints, ?_, (hSorted endpoints).symm⟩
      exact Endpoint.readList_eq_ok_iff.mpr ⟨endpoints, forall₂_spells_trim.mpr hEntries, rfl⟩

theorem mem_iff_of_ofSetting {setting : String} {w : Whitelist}
    (h : ofSetting (some setting) = .ok w) (e : Endpoint) :
    e ∈ w.endpoints ↔ ∃ entry ∈ entries setting, Endpoint.Spells entry e := by
  obtain ⟨endpoints, hEntries, rfl⟩ := ofSetting_eq_ok_iff.mp h
  rw [mem_ofList, Endpoint.mem_iff_of_forall₂_spells hEntries]

/-- A setting that is not blank has an entry, so it never gives the empty whitelist. -/
theorem endpoints_ne_nil_of_ofSetting {setting : String} {w : Whitelist}
    (hText : ¬ IsBlankText setting.toList) (h : ofSetting (some setting) = .ok w) :
    w.endpoints ≠ [] := by
  obtain ⟨entry, rest, hEntries⟩ :=
    List.exists_cons_of_ne_nil (mt entries_eq_nil_iff.mp hText)
  obtain ⟨endpoints, hSpelled, rfl⟩ := ofSetting_eq_ok_iff.mp h
  rw [hEntries, List.forall₂_cons_left_iff] at hSpelled
  obtain ⟨e, others, _, _, rfl⟩ := hSpelled
  exact List.ne_nil_of_mem (mem_ofList.mpr List.mem_cons_self)

theorem exists_ofSetting_eq_ok_iff {setting : String} :
    (∃ w, ofSetting (some setting) = .ok w) ↔
      ∀ entry ∈ entries setting, ∃ e, Endpoint.Spells entry e := by
  rw [← Endpoint.exists_forall₂_spells_iff]
  simp only [ofSetting_eq_ok_iff]
  constructor
  · rintro ⟨w, endpoints, hEntries, _⟩
    exact ⟨endpoints, hEntries⟩
  · rintro ⟨endpoints, hEntries⟩
    exact ⟨ofList endpoints, endpoints, hEntries, rfl⟩

/-- Every entry of one setting stands in the other, perhaps with other blanks. -/
def Covers (setting other : String) : Prop :=
  ∀ entry ∈ entries setting, ∃ entry' ∈ entries other, Endpoint.Respaced entry entry'

theorem Covers.exists_spells {setting other : String} (h : Covers setting other) {e : Endpoint}
    (he : ∃ entry ∈ entries setting, Endpoint.Spells entry e) :
    ∃ entry ∈ entries other, Endpoint.Spells entry e := by
  obtain ⟨entry, hEntry, hSpells⟩ := he
  obtain ⟨entry', hEntry', hSpaced⟩ := h entry hEntry
  exact ⟨entry', hEntry', hSpaced.spells hSpells⟩

/-- Two settings that have each other's entries are read as the same whitelist. -/
theorem ofSetting_eq_ok_of_covers {setting other : String} (h : Covers setting other)
    (h' : Covers other setting) {w : Whitelist} (hRead : ofSetting (some setting) = .ok w) :
    ofSetting (some other) = .ok w := by
  have hSpelled := exists_ofSetting_eq_ok_iff.mp ⟨w, hRead⟩
  obtain ⟨w', hRead'⟩ : ∃ w', ofSetting (some other) = .ok w' := by
    rw [exists_ofSetting_eq_ok_iff]
    intro entry' hEntry'
    obtain ⟨entry, hEntry, hSpaced⟩ := h' entry' hEntry'
    obtain ⟨e, he⟩ := hSpelled entry hEntry
    exact ⟨e, hSpaced.symm.spells he⟩
  obtain ⟨endpoints, hEntries, rfl⟩ := ofSetting_eq_ok_iff.mp hRead
  obtain ⟨others, hOthers, rfl⟩ := ofSetting_eq_ok_iff.mp hRead'
  rw [hRead']
  refine congrArg Except.ok (ofList_congr fun e => ?_)
  rw [Endpoint.mem_iff_of_forall₂_spells hOthers, Endpoint.mem_iff_of_forall₂_spells hEntries]
  exact ⟨h'.exists_spells, h.exists_spells⟩

end Whitelist

end StreamAdmission
