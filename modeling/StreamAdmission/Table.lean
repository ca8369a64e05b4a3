/-!
# Tables

Finite maps as association lists in ascending order of their keys. The order is part of the type,
so equal maps are equal tables however they were built. Entering a key again replaces its value.
-/

namespace StreamAdmission

/-- A finite map, its entries in strictly ascending order of their keys. -/
structure Table (κ α : Type) [Ord κ] where
  entries : List (κ × α)
  ascending : entries.Pairwise fun a b => compare a.1 b.1 = .lt

namespace Table

variable {κ α β : Type} [Ord κ]

/-- Enters a value in an ascending list of entries, in place of one with the same key. -/
def insertEntry (key : κ) (value : α) : List (κ × α) → List (κ × α)
  | [] => [(key, value)]
  | entry :: rest =>
    match compare key entry.1 with
    | .lt => (key, value) :: entry :: rest
    | .eq => (key, value) :: rest
    | .gt => entry :: insertEntry key value rest

def lookup? (key : κ) : List (κ × α) → Option α
  | [] => none
  | entry :: rest => if compare key entry.1 = .eq then some entry.2 else lookup? key rest

theorem mem_insertEntry {key : κ} {value : α} {entries : List (κ × α)} {entry : κ × α}
    (h : entry ∈ insertEntry key value entries) : entry = (key, value) ∨ entry ∈ entries := by
  induction entries with
  | nil => simpa [insertEntry] using h
  | cons first rest ih =>
    rw [insertEntry] at h
    split at h <;> grind

theorem pairwise_insertEntry [Std.TransOrd κ] {key : κ} {value : α} {entries : List (κ × α)}
    (h : entries.Pairwise fun a b => compare a.1 b.1 = .lt) :
    (insertEntry key value entries).Pairwise fun a b => compare a.1 b.1 = .lt := by
  induction entries with
  | nil => simp [insertEntry]
  | cons first rest ih =>
    obtain ⟨above, tail⟩ := List.pairwise_cons.1 h
    rw [insertEntry]
    split
    · rename_i hlt
      refine List.pairwise_cons.2 ⟨fun entry mem => ?_, h⟩
      rcases List.mem_cons.1 mem with rfl | mem
      · exact hlt
      · exact Std.TransCmp.lt_trans hlt (above entry mem)
    · rename_i heq
      exact List.pairwise_cons.2
        ⟨fun entry mem => Std.TransCmp.lt_of_eq_of_lt heq (above entry mem), tail⟩
    · rename_i hgt
      refine List.pairwise_cons.2 ⟨fun entry mem => ?_, ih tail⟩
      rcases mem_insertEntry mem with rfl | mem
      · exact Std.OrientedCmp.lt_of_gt hgt
      · exact above entry mem

protected def empty : Table κ α := ⟨[], .nil⟩

instance : EmptyCollection (Table κ α) := ⟨Table.empty⟩
instance : Inhabited (Table κ α) := ⟨Table.empty⟩

instance [DecidableEq κ] [DecidableEq α] : DecidableEq (Table κ α) := fun s t =>
  if h : s.entries = t.entries then .isTrue (by cases s; cases t; simp_all)
  else .isFalse (by rintro rfl; exact h rfl)

/-- The table with a value entered under a key. -/
def insert [Std.TransOrd κ] (table : Table κ α) (key : κ) (value : α) : Table κ α :=
  ⟨insertEntry key value table.entries, pairwise_insertEntry table.ascending⟩

def get? (table : Table κ α) (key : κ) : Option α := lookup? key table.entries

def contains (table : Table κ α) (key : κ) : Bool := (table.get? key).isSome

def size (table : Table κ α) : Nat := table.entries.length

def keys (table : Table κ α) : List κ := table.entries.map Prod.fst

/-- Enters the pairs from left to right, so that of two values for one key the later stays. -/
def ofList [Std.TransOrd κ] (pairs : List (κ × α)) : Table κ α :=
  pairs.foldl (fun table pair => table.insert pair.1 pair.2) ∅

def erase (table : Table κ α) (key : κ) : Table κ α :=
  ⟨table.entries.filter fun entry => compare key entry.1 ≠ .eq, table.ascending.filter _⟩

def insertIfNew [Std.TransOrd κ] (table : Table κ α) (key : κ) (value : α) : Table κ α :=
  if table.contains key then table else table.insert key value

theorem ext {s t : Table κ α} (h : s.entries = t.entries) : s = t := by
  cases s; cases t; simp_all

@[simp] theorem get?_empty (key : κ) : (∅ : Table κ α).get? key = none := rfl

theorem lookup?_insertEntry_self [Std.TransOrd κ] (key : κ) (value : α)
    (entries : List (κ × α)) : lookup? key (insertEntry key value entries) = some value := by
  induction entries with
  | nil => simp [insertEntry, lookup?]
  | cons first rest ih =>
    rw [insertEntry]
    split <;> simp_all [lookup?]

theorem lookup?_insertEntry_of_ne [Std.TransOrd κ] [Std.LawfulEqOrd κ] {key other : κ}
    (h : other ≠ key) (value : α) (entries : List (κ × α)) :
    lookup? other (insertEntry key value entries) = lookup? other entries := by
  have hne : compare other key ≠ .eq := fun he => h (Std.LawfulEqCmp.eq_of_compare he)
  induction entries with
  | nil => simp [insertEntry, lookup?, hne]
  | cons first rest ih =>
    rw [insertEntry]
    split
    · simp [lookup?, hne]
    · rename_i heq
      have := Std.LawfulEqCmp.eq_of_compare heq
      subst this
      simp [lookup?, hne]
    · simp [lookup?, ih]

@[simp] theorem get?_insert_self [Std.TransOrd κ] (table : Table κ α) (key : κ) (value : α) :
    (table.insert key value).get? key = some value :=
  lookup?_insertEntry_self key value table.entries

theorem get?_insert_of_ne [Std.TransOrd κ] [Std.LawfulEqOrd κ] (table : Table κ α)
    {key other : κ} (h : other ≠ key) (value : α) :
    (table.insert key value).get? other = table.get? other :=
  lookup?_insertEntry_of_ne h value table.entries

theorem lookup?_isSome_iff [Std.LawfulEqOrd κ] {key : κ} {entries : List (κ × α)} :
    (lookup? key entries).isSome = true ↔ key ∈ entries.map Prod.fst := by
  induction entries with
  | nil => simp [lookup?]
  | cons first rest ih =>
    rw [lookup?, List.map_cons, List.mem_cons]
    split
    · rename_i heq
      simp [Std.LawfulEqCmp.eq_of_compare heq]
    · rename_i hne
      have : key ≠ first.1 := fun he => hne (he ▸ Std.ReflCmp.compare_self)
      simp [this, ih]

theorem contains_iff_mem_keys [Std.LawfulEqOrd κ] {table : Table κ α} {key : κ} :
    table.contains key = true ↔ key ∈ table.keys :=
  lookup?_isSome_iff

theorem pairwise_keys (table : Table κ α) :
    table.keys.Pairwise fun a b => compare a b = .lt :=
  List.pairwise_map.mpr table.ascending

end Table

end StreamAdmission
