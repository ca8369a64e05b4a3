/-!
# Outcomes of reading

What a mapped outcome tells about the one it was made from, and outcomes that agree but for the
failures they name.
-/

namespace StreamAdmission

variable {ε ε' α β : Type}

theorem map_eq_ok_iff {r : Except ε α} {f : α → β} {b : β} :
    r.map f = .ok b ↔ ∃ a, r = .ok a ∧ f a = b := by
  constructor
  · intro h
    cases r with
    | error e => cases h
    | ok a =>
      cases h
      exact ⟨a, rfl, rfl⟩
  · rintro ⟨a, rfl, rfl⟩
    rfl

theorem map_eq_error_iff {r : Except ε α} {f : α → β} {e : ε} :
    r.map f = .error e ↔ r = .error e := by
  cases r with
  | error e' =>
    constructor <;>
    · intro h
      cases h
      rfl
  | ok a => exact iff_of_false nofun nofun

theorem mapError_eq_ok_iff {r : Except ε α} {f : ε → ε'} {a : α} :
    r.mapError f = .ok a ↔ r = .ok a := by
  cases r with
  | error e => exact iff_of_false nofun nofun
  | ok a' =>
    constructor <;>
    · intro h
      cases h
      rfl

theorem mapError_eq_error_iff {r : Except ε α} {f : ε → ε'} {e' : ε'} :
    r.mapError f = .error e' ↔ ∃ e, r = .error e ∧ f e = e' := by
  cases r with
  | ok a => exact iff_of_false nofun nofun
  | error e =>
    constructor
    · intro h
      cases h
      exact ⟨e, rfl, rfl⟩
    · rintro ⟨_, h, rfl⟩
      cases h
      rfl

/-- Both give the same value, or both fail. -/
def SameOutcome (r r' : Except ε α) : Prop :=
  (∃ a, r = .ok a ∧ r' = .ok a) ∨ ∃ e e', r = .error e ∧ r' = .error e'

theorem sameOutcome_of_iff {r r' : Except ε α} (h : ∀ a, r = .ok a ↔ r' = .ok a) :
    SameOutcome r r' := by
  cases hr : r with
  | ok a => exact Or.inl ⟨a, rfl, (h a).mp hr⟩
  | error e =>
    cases hr' : r' with
    | ok a =>
      rw [(h a).mpr hr'] at hr
      cases hr
    | error e' => exact Or.inr ⟨e, e', rfl, rfl⟩

theorem SameOutcome.eq_ok_iff {r r' : Except ε α} (h : SameOutcome r r') (a : α) :
    r = .ok a ↔ r' = .ok a := by
  rcases h with ⟨b, rfl, rfl⟩ | ⟨e, e', rfl, rfl⟩
  · exact Iff.rfl
  · exact iff_of_false nofun nofun

theorem SameOutcome.map {r r' : Except ε α} (h : SameOutcome r r') (f : α → β) :
    SameOutcome (r.map f) (r'.map f) := by
  apply sameOutcome_of_iff
  intro b
  simp only [map_eq_ok_iff, h.eq_ok_iff]

end StreamAdmission
