import StreamAdmission.Text.Numeral

/-!
# Broker endpoints

A broker node is a host and a port. Endpoints are ordered by host and then by port, hosts by code
point and ports as numbers. The order is total, so any list of endpoints can be put in order, with or
without those that it gives twice.
-/

namespace StreamAdmission

/-- One broker node of a cluster. -/
structure Endpoint where
  host : String
  port : UInt16
  deriving DecidableEq, Repr, Inhabited

namespace Endpoint

def chars (e : Endpoint) : List Char := e.host.toList ++ ':' :: Text.decimal e.port.toNat

def render (e : Endpoint) : String := String.ofList e.chars

/-! ### Order -/

/-- At most, by host and then by port. -/
def le (a b : Endpoint) : Bool :=
  a.host < b.host || (a.host = b.host && a.port ≤ b.port)

theorem le_iff {a b : Endpoint} :
    a.le b = true ↔ a.host < b.host ∨ (a.host = b.host ∧ a.port ≤ b.port) := by
  simp [le]

theorem le_total (a b : Endpoint) : a.le b = true ∨ b.le a = true := by
  simp only [le_iff]
  by_cases hab : a.host < b.host
  · exact Or.inl (Or.inl hab)
  by_cases hba : b.host < a.host
  · exact Or.inr (Or.inl hba)
  have heq : a.host = b.host := String.le_antisymm (String.not_lt.mp hba) (String.not_lt.mp hab)
  rcases UInt16.le_total a.port b.port with h | h
  · exact Or.inl (Or.inr ⟨heq, h⟩)
  · exact Or.inr (Or.inr ⟨heq.symm, h⟩)

theorem le_trans {a b c : Endpoint} (hab : a.le b = true) (hbc : b.le c = true) :
    a.le c = true := by
  rw [le_iff] at hab hbc ⊢
  rcases hab with hab | ⟨hab, pab⟩
  · rcases hbc with hbc | ⟨hbc, _⟩
    · exact Or.inl (String.lt_trans hab hbc)
    · exact Or.inl (hbc ▸ hab)
  · rcases hbc with hbc | ⟨hbc, pbc⟩
    · exact Or.inl (hab ▸ hbc)
    · exact Or.inr ⟨hab.trans hbc, UInt16.le_trans pab pbc⟩

theorem le_antisymm {a b : Endpoint} (hab : a.le b = true) (hba : b.le a = true) : a = b := by
  rw [le_iff] at hab hba
  rcases hab with hab | ⟨hHost, hab⟩
  · rcases hba with hba | ⟨hHost, _⟩
    · exact absurd hba (String.lt_asymm hab)
    · exact absurd (hHost ▸ hab) (String.lt_irrefl _)
  · rcases hba with hba | ⟨_, hba⟩
    · exact absurd (hHost ▸ hba) (String.lt_irrefl _)
    · cases a
      cases b
      cases hHost
      cases UInt16.le_antisymm hab hba
      rfl

/-! ### Lists in order -/

/-- Every endpoint is at most those behind it. -/
def Sorted (endpoints : List Endpoint) : Prop := endpoints.Pairwise fun a b => a.le b = true

instance : DecidablePred Sorted := fun endpoints =>
  inferInstanceAs (Decidable (endpoints.Pairwise _))

/-- Enters an endpoint in an ordered list. -/
def insertSorted (e : Endpoint) : List Endpoint → List Endpoint
  | [] => [e]
  | first :: rest => if e.le first then e :: first :: rest else first :: insertSorted e rest

/-- The endpoints in order, those given twice kept twice. -/
def sort : List Endpoint → List Endpoint
  | [] => []
  | e :: rest => insertSorted e (sort rest)

theorem insertSorted_perm (e : Endpoint) (endpoints : List Endpoint) :
    (insertSorted e endpoints).Perm (e :: endpoints) := by
  induction endpoints with
  | nil => exact List.Perm.refl _
  | cons first rest ih =>
    rw [insertSorted]
    split
    · exact List.Perm.refl _
    · exact (List.Perm.cons first ih).trans (List.Perm.swap e first rest)

theorem insertSorted_sorted {endpoints : List Endpoint} (h : Sorted endpoints) (e : Endpoint) :
    Sorted (insertSorted e endpoints) := by
  induction endpoints with
  | nil => exact List.pairwise_singleton _ _
  | cons first rest ih =>
    obtain ⟨above, tail⟩ := List.pairwise_cons.mp h
    rw [insertSorted]
    split
    · rename_i hle
      refine List.pairwise_cons.mpr ⟨fun x hx => ?_, h⟩
      rcases List.mem_cons.mp hx with rfl | hx
      · exact hle
      · exact le_trans hle (above x hx)
    · rename_i hle
      refine List.pairwise_cons.mpr ⟨fun x hx => ?_, ih tail⟩
      rcases List.mem_cons.mp ((insertSorted_perm e rest).mem_iff.mp hx) with rfl | hx
      · exact (le_total x first).resolve_left hle
      · exact above x hx

theorem sort_sorted (endpoints : List Endpoint) : Sorted (sort endpoints) := by
  induction endpoints with
  | nil => exact List.Pairwise.nil
  | cons e rest ih => exact insertSorted_sorted ih e

/-! ### Lists in strict order -/

/-- Every endpoint is before those behind it. -/
def Ascending (endpoints : List Endpoint) : Prop :=
  endpoints.Pairwise fun a b => a.le b = true ∧ a ≠ b

instance : DecidablePred Ascending := fun endpoints =>
  inferInstanceAs (Decidable (endpoints.Pairwise _))

/-- Enters an endpoint in a strictly ordered list that may hold it already. -/
def insertNew (e : Endpoint) : List Endpoint → List Endpoint
  | [] => [e]
  | first :: rest =>
    if e = first then first :: rest
    else if e.le first then e :: first :: rest
    else first :: insertNew e rest

theorem mem_insertNew {x e : Endpoint} {endpoints : List Endpoint} :
    x ∈ insertNew e endpoints ↔ x = e ∨ x ∈ endpoints := by
  induction endpoints with
  | nil => exact List.mem_cons
  | cons first rest ih =>
    rw [insertNew]
    split
    · rename_i he
      rw [List.mem_cons, he]
      exact ⟨Or.inr, fun h => h.elim Or.inl id⟩
    split
    · exact List.mem_cons
    · rw [List.mem_cons, ih, List.mem_cons]
      exact or_left_comm

theorem insertNew_ascending {endpoints : List Endpoint} (h : Ascending endpoints)
    (e : Endpoint) : Ascending (insertNew e endpoints) := by
  induction endpoints with
  | nil => exact List.pairwise_singleton _ _
  | cons first rest ih =>
    obtain ⟨above, tail⟩ := List.pairwise_cons.mp h
    rw [insertNew]
    split
    · exact h
    rename_i hne
    split
    · rename_i hle
      refine List.pairwise_cons.mpr ⟨fun x hx => ?_, h⟩
      rcases List.mem_cons.mp hx with rfl | hx
      · exact ⟨hle, hne⟩
      · obtain ⟨hAbove, hOther⟩ := above x hx
        refine ⟨le_trans hle hAbove, ?_⟩
        rintro rfl
        exact hOther (le_antisymm hAbove hle)
    · rename_i hle
      refine List.pairwise_cons.mpr ⟨fun x hx => ?_, ih tail⟩
      rcases mem_insertNew.mp hx with rfl | hx
      · exact ⟨(le_total x first).resolve_left hle, fun he => hne he.symm⟩
      · exact above x hx

end Endpoint

end StreamAdmission
