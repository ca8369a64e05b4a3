import Mathlib.Data.List.Induction
import Mathlib.Data.List.Nodup
import Mathlib.Data.List.Perm.Basic
import StreamAdmission.Table

/-!
# Tables from lists of pairs

A table made from pairs has for each key the last value that the pairs give for it. The entries of a
table make the table again in whatever order they are entered. A table is known from the values of
its keys.
-/

namespace StreamAdmission.Table

variable {κ α : Type} [Ord κ]

theorem insertEntry_perm [Std.LawfulEqOrd κ] {key : κ} (value : α) {entries : List (κ × α)}
    (h : key ∉ entries.map Prod.fst) :
    (insertEntry key value entries).Perm ((key, value) :: entries) := by
  induction entries with
  | nil => exact List.Perm.refl _
  | cons first rest ih =>
    rw [List.map_cons, List.mem_cons, not_or] at h
    rw [insertEntry]
    split
    · exact List.Perm.refl _
    · rename_i heq
      exact absurd (Std.LawfulEqCmp.eq_of_compare heq) h.1
    · exact ((ih h.2).cons first).trans (List.Perm.swap (key, value) first rest)

theorem lookup?_eq_some_iff [Std.LawfulEqOrd κ] {entries : List (κ × α)}
    (h : (entries.map Prod.fst).Nodup) {key : κ} {value : α} :
    lookup? key entries = some value ↔ (key, value) ∈ entries := by
  induction entries with
  | nil => simp [lookup?]
  | cons first rest ih =>
    obtain ⟨hNew, hRest⟩ := List.nodup_cons.mp h
    rw [lookup?, List.mem_cons]
    split
    · rename_i heq
      obtain rfl := Std.LawfulEqCmp.eq_of_compare heq
      have hOther : (first.1, value) ∉ rest := fun hMem => hNew (List.mem_map.mpr ⟨_, hMem, rfl⟩)
      simp only [hOther, or_false, Option.some.injEq, Prod.ext_iff, true_and]
      exact eq_comm
    · rename_i hne
      have hFirst : (key, value) ≠ first := by
        rintro rfl
        exact hne Std.ReflCmp.compare_self
      simp only [hFirst, false_or, ih hRest]

variable [Std.TransOrd κ]

theorem ofList_append_singleton (pairs : List (κ × α)) (pair : κ × α) :
    ofList (pairs ++ [pair]) = (ofList pairs).insert pair.1 pair.2 := by
  rw [ofList, List.foldl_append]
  rfl

theorem get?_ofList [Std.LawfulEqOrd κ] [DecidableEq κ] (pairs : List (κ × α)) (key : κ) :
    (ofList pairs).get? key =
      ((pairs.filter fun pair => pair.1 = key).getLast?).map Prod.snd := by
  -- By induction from the right: the pair that is entered last decides.
  induction pairs using List.reverseRecOn with
  | nil => rfl
  | append_singleton pairs pair ih =>
    rw [ofList_append_singleton, List.filter_append]
    by_cases h : pair.1 = key
    · have hLast : [pair].filter (fun pair => pair.1 = key) = [pair] := by simp [h]
      rw [hLast, List.getLast?_concat, ← h, get?_insert_self, Option.map_some]
    · have hLast : [pair].filter (fun pair => pair.1 = key) = [] := by simp [h]
      rw [hLast, List.append_nil, get?_insert_of_ne _ (Ne.symm h), ih]

theorem entries_ofList_perm [Std.LawfulEqOrd κ] {pairs : List (κ × α)}
    (h : (pairs.map Prod.fst).Nodup) : (ofList pairs).entries.Perm pairs := by
  induction pairs using List.reverseRecOn with
  | nil => exact List.Perm.refl _
  | append_singleton pairs pair ih =>
    rw [((List.perm_append_singleton pair pairs).map Prod.fst).nodup_iff, List.map_cons,
      List.nodup_cons] at h
    have hPairs := ih h.2
    have hNew : pair.1 ∉ (ofList pairs).entries.map Prod.fst :=
      fun hMem => h.1 ((hPairs.map Prod.fst).mem_iff.mp hMem)
    rw [ofList_append_singleton]
    exact (insertEntry_perm pair.2 hNew).trans
      ((hPairs.cons pair).trans (List.perm_append_singleton pair pairs).symm)

theorem keys_nodup (table : Table κ α) : table.keys.Nodup := by
  refine table.pairwise_keys.imp fun {a b} h hEq => ?_
  have hSelf : compare b b = .eq := Std.ReflCmp.compare_self
  rw [hEq, hSelf] at h
  cases h

/-- Entering the entries of a table in any order gives the table. -/
theorem ofList_of_perm [Std.LawfulEqOrd κ] {table : Table κ α} {pairs : List (κ × α)}
    (h : pairs.Perm table.entries) : ofList pairs = table := by
  have hKeys : (pairs.map Prod.fst).Nodup := (h.map Prod.fst).nodup_iff.mpr table.keys_nodup
  have hPerm := (entries_ofList_perm hKeys).trans h
  refine Table.ext (hPerm.eq_of_pairwise ?_ (ofList pairs).ascending table.ascending)
  intro a b _ _ hab hba
  rw [Std.OrientedCmp.gt_of_lt hba] at hab
  cases hab

theorem ofList_entries [Std.LawfulEqOrd κ] (table : Table κ α) : ofList table.entries = table :=
  ofList_of_perm (List.Perm.refl table.entries)

section Values
variable [Std.LawfulEqOrd κ]

/-- The order in which pairs are entered does not matter if no two have the same key. -/
theorem ofList_eq_of_perm {pairs pairs' : List (κ × α)} (h : pairs.Perm pairs')
    (hKeys : (pairs'.map Prod.fst).Nodup) : ofList pairs = ofList pairs' :=
  ofList_of_perm (h.trans (entries_ofList_perm hKeys).symm)

theorem get?_eq_some_iff {table : Table κ α} {key : κ} {value : α} :
    table.get? key = some value ↔ (key, value) ∈ table.entries :=
  lookup?_eq_some_iff table.keys_nodup

theorem get?_ofList_eq_some_iff {pairs : List (κ × α)} (h : (pairs.map Prod.fst).Nodup) {key : κ}
    {value : α} : (ofList pairs).get? key = some value ↔ (key, value) ∈ pairs := by
  rw [get?_eq_some_iff, (entries_ofList_perm h).mem_iff]

/-- Tables with the same value for every key are equal. -/
theorem ext_get? {s t : Table κ α} (h : ∀ key, s.get? key = t.get? key) : s = t := by
  have hMem : ∀ entry, entry ∈ s.entries ↔ entry ∈ t.entries := by
    intro entry
    rw [← get?_eq_some_iff, ← get?_eq_some_iff, h]
  have hPerm : s.entries.Perm t.entries :=
    (List.perm_ext_iff_of_nodup (List.Nodup.of_map _ s.keys_nodup)
      (List.Nodup.of_map _ t.keys_nodup)).mpr hMem
  -- the entries of `s`, entered again, give `s` and also `t`
  rw [← ofList_entries s, ofList_of_perm hPerm]

theorem get?_insert [DecidableEq κ] (table : Table κ α) (key other : κ) (value : α) :
    (table.insert key value).get? other = if other = key then some value else table.get? other := by
  split
  · rename_i heq
    rw [heq, get?_insert_self]
  · rename_i hne
    rw [get?_insert_of_ne table hne]

theorem get?_insertIfNew [DecidableEq κ] (table : Table κ α) (key other : κ) (value : α) :
    (table.insertIfNew key value).get? other =
      if other = key then some ((table.get? key).getD value) else table.get? other := by
  cases hKey : table.get? key with
  | none =>
    have hNew : table.contains key = false := by rw [contains, hKey, Option.isSome_none]
    rw [insertIfNew, hNew, if_neg Bool.false_ne_true, get?_insert, Option.getD_none]
  | some held =>
    have hHeld : table.contains key = true := by rw [contains, hKey, Option.isSome_some]
    rw [insertIfNew, if_pos hHeld]
    split
    · rename_i heq
      rw [heq, hKey, Option.getD_some]
    · rfl

end Values

end StreamAdmission.Table
