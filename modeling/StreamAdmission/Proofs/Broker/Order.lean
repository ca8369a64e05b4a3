import StreamAdmission.Broker.Endpoint

/-!
# One order for the same endpoints

Sorting a list in order does not change it, and lists with the same endpoints are sorted to one list.
A list in strict order is determined by its members.
-/

namespace StreamAdmission.Endpoint

theorem sorted_iff {endpoints : List Endpoint} :
    Sorted endpoints ↔ endpoints.Pairwise fun a b =>
      a.host < b.host ∨ (a.host = b.host ∧ a.port ≤ b.port) := by
  simp only [Sorted, le_iff]

theorem sort_perm (endpoints : List Endpoint) : (sort endpoints).Perm endpoints := by
  induction endpoints with
  | nil => exact List.Perm.refl _
  | cons e rest ih => exact (insertSorted_perm e (sort rest)).trans (List.Perm.cons e ih)

theorem sort_eq_self {endpoints : List Endpoint} (h : Sorted endpoints) :
    sort endpoints = endpoints := by
  induction endpoints with
  | nil => rfl
  | cons e rest ih =>
    obtain ⟨above, tail⟩ := List.pairwise_cons.mp h
    rw [sort, ih tail]
    cases rest with
    | nil => rfl
    | cons first rest => rw [insertSorted, if_pos (above first List.mem_cons_self)]

/-- Sorting gives the one ordered list of the same endpoints. -/
theorem sort_eq_iff {endpoints sorted : List Endpoint} :
    sort endpoints = sorted ↔ sorted.Perm endpoints ∧ Sorted sorted := by
  constructor
  · rintro rfl
    exact ⟨sort_perm endpoints, sort_sorted endpoints⟩
  · rintro ⟨hPerm, hSorted⟩
    exact ((sort_perm endpoints).trans hPerm.symm).eq_of_pairwise
      (fun _ _ _ _ => le_antisymm) (sort_sorted endpoints) hSorted

theorem Ascending.eq_of_mem_iff {l l' : List Endpoint} (h : Ascending l) (h' : Ascending l')
    (hMem : ∀ e, e ∈ l ↔ e ∈ l') : l = l' := by
  have hPerm : l.Perm l' :=
    (List.perm_ext_iff_of_nodup (h.imp fun hab => hab.2) (h'.imp fun hab => hab.2)).mpr hMem
  exact hPerm.eq_of_pairwise (fun _ _ _ _ hab hba => le_antisymm hab.1 hba.1) h h'

/-- Strictly before, by host and then by port. -/
theorem le_and_ne_iff {a b : Endpoint} :
    (a.le b = true ∧ a ≠ b) ↔ a.host < b.host ∨ (a.host = b.host ∧ a.port < b.port) := by
  rw [le_iff]
  constructor
  · rintro ⟨hHost | ⟨hHost, hPort⟩, hne⟩
    · exact Or.inl hHost
    · refine Or.inr ⟨hHost, UInt16.lt_of_le_of_ne hPort fun hSame => hne ?_⟩
      cases a
      cases b
      cases hHost
      cases hSame
      rfl
  · rintro (hHost | ⟨hHost, hPort⟩)
    · refine ⟨Or.inl hHost, ?_⟩
      rintro rfl
      exact String.lt_irrefl _ hHost
    · refine ⟨Or.inr ⟨hHost, UInt16.le_of_lt hPort⟩, ?_⟩
      rintro rfl
      exact UInt16.lt_irrefl _ hPort

theorem ascending_iff {endpoints : List Endpoint} :
    Ascending endpoints ↔ endpoints.Pairwise fun a b =>
      a.host < b.host ∨ (a.host = b.host ∧ a.port < b.port) := by
  simp only [Ascending, le_and_ne_iff]

theorem Ascending.sort_eq {endpoints order : List Endpoint} (h : Ascending endpoints)
    (hOnce : order.Nodup) (hMem : ∀ e, e ∈ order ↔ e ∈ endpoints) : sort order = endpoints := by
  apply sort_eq_iff.mpr
  constructor
  · apply (List.perm_ext_iff_of_nodup (h.imp fun hab => hab.2) hOnce).mpr
    exact fun e => (hMem e).symm
  · exact h.imp fun hab => hab.1

end StreamAdmission.Endpoint
