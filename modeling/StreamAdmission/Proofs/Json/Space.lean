import StreamAdmission.Json.Reader

/-!
# White space between tokens

What is passed over in front of a token is white space, as much of it as there is.
-/

namespace StreamAdmission.Json

/-- Nothing but spaces, line feeds, tabs and carriage returns. -/
def IsSpacing (text : List Char) : Prop :=
  ∀ c ∈ text, c = ' ' ∨ c = '\n' ∨ c = '\t' ∨ c = '\r'

theorem isSpace_iff {c : Char} :
    isSpace c = true ↔ c = ' ' ∨ c = '\n' ∨ c = '\t' ∨ c = '\r' := by
  simp [isSpace, or_assoc]

/-! ### Spans -/

theorem takeWhile_append_of_head {p : Char → Bool} {body rest : List Char}
    (h : ∀ c ∈ body, p c = true) (hRest : ∀ c ∈ rest.head?, p c = false) :
    (body ++ rest).takeWhile p = body := by
  rw [List.takeWhile_append_of_pos h]
  cases rest with
  | nil => exact List.append_nil body
  | cons c rest => rw [List.takeWhile_cons_of_neg (by simp [hRest c rfl]), List.append_nil]

theorem dropWhile_append_of_head {p : Char → Bool} {body rest : List Char}
    (h : ∀ c ∈ body, p c = true) (hRest : ∀ c ∈ rest.head?, p c = false) :
    (body ++ rest).dropWhile p = rest := by
  rw [List.dropWhile_append_of_pos h]
  cases rest with
  | nil => rfl
  | cons c rest => rw [List.dropWhile_cons_of_neg (by simp [hRest c rfl])]

/-! ### Spacing -/

theorem isSpacing_nil : IsSpacing [] := fun _ h => absurd h List.not_mem_nil

theorem isSpacing_cons_iff {c : Char} {text : List Char} :
    IsSpacing (c :: text) ↔ isSpace c = true ∧ IsSpacing text := by
  rw [isSpace_iff]
  exact List.forall_mem_cons

theorem skipSpace_cons_of_not {c : Char} (h : isSpace c = false) (text : List Char) :
    skipSpace (c :: text) = c :: text := by
  rw [skipSpace, List.dropWhile_cons_of_neg (by rw [h]; exact Bool.false_ne_true)]

theorem skipSpace_append {space : List Char} (h : IsSpacing space) (text : List Char) :
    skipSpace (space ++ text) = skipSpace text :=
  List.dropWhile_append_of_pos fun c hc => isSpace_iff.mpr (h c hc)

theorem skipSpace_append_cons {space : List Char} (h : IsSpacing space) {c : Char}
    (hc : isSpace c = false) (text : List Char) : skipSpace (space ++ c :: text) = c :: text := by
  rw [skipSpace_append h, skipSpace_cons_of_not hc]

theorem exists_eq_append_skipSpace (text : List Char) :
    ∃ space, IsSpacing space ∧ text = space ++ skipSpace text := by
  refine ⟨text.takeWhile isSpace, ?_, List.takeWhile_append_dropWhile.symm⟩
  intro c hc
  exact isSpace_iff.mp (List.all_eq_true.mp List.all_takeWhile c hc)

theorem skipSpace_eq_nil_iff {text : List Char} : skipSpace text = [] ↔ IsSpacing text := by
  constructor
  · intro h
    obtain ⟨space, hSpace, hText⟩ := exists_eq_append_skipSpace text
    rw [h, List.append_nil] at hText
    rwa [hText]
  · intro h
    have hSkip := skipSpace_append h []
    rwa [List.append_nil] at hSkip

/-- The next token starts with the first character that is no white space. -/
theorem skipSpace_eq_cons_iff {c : Char} {text rest : List Char} :
    skipSpace text = c :: rest ↔
      isSpace c = false ∧ ∃ space, IsSpacing space ∧ text = space ++ c :: rest := by
  constructor
  · intro h
    obtain ⟨space, hSpace, hText⟩ := exists_eq_append_skipSpace text
    rw [h] at hText
    have hHead := List.head?_dropWhile_not isSpace text
    rw [show text.dropWhile isSpace = c :: rest from h] at hHead
    exact ⟨by simpa using hHead, space, hSpace, hText⟩
  · rintro ⟨hc, space, hSpace, rfl⟩
    exact skipSpace_append_cons hSpace hc rest

/-- A text holds one value if only white space is left behind it. -/
theorem decode_eq_ok_iff {α : Type} {read : Reader α} {text : String} {value : α} :
    decode read text = .ok value ↔
      ∃ rest, read text.toList = .ok (value, rest) ∧ IsSpacing rest := by
  rw [decode]
  cases hRead : read text.toList with
  | error failure => exact ⟨nofun, fun ⟨_, h, _⟩ => nomatch h⟩
  | ok result =>
    obtain ⟨found, rest⟩ := result
    cases hRest : skipSpace rest with
    | nil =>
      simp only [hRest, Except.ok.injEq, Prod.mk.injEq]
      constructor
      · rintro rfl
        exact ⟨rest, ⟨rfl, rfl⟩, skipSpace_eq_nil_iff.mp hRest⟩
      · rintro ⟨_, ⟨h, _⟩, _⟩
        exact h
    | cons c others =>
      simp only [hRest]
      refine ⟨nofun, ?_⟩
      rintro ⟨_, h, hSpace⟩
      obtain ⟨rfl, rfl⟩ := Prod.mk.inj (Except.ok.inj h)
      rw [skipSpace_eq_nil_iff.mpr hSpace] at hRest
      cases hRest

end StreamAdmission.Json
