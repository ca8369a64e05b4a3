import StreamAdmission.Proofs.Broker.Whitelist

/-!
# Written whitelists

A whitelist that comes from a setting is written as its endpoints in strict order, with a comma and
a space between them. This is a setting again, and it gives the same whitelist. The text depends on
the set of endpoints alone, and not on an order in which they are met.
-/

namespace StreamAdmission

open Text

namespace Endpoint

theorem Valid.spells_chars {e : Endpoint} (h : e.Valid) : Spells e.chars e :=
  ofEntry_eq_ok_iff.mp (ofEntry_chars h)

theorem Valid.spells_blank_append {e : Endpoint} (h : e.Valid) {blanks : List Char}
    (hBlank : IsBlankText blanks) : Spells (blanks ++ e.chars) e := by
  have hSpaced : Respaced e.chars (blanks ++ e.chars) := .ends (trim_blank_append hBlank _).symm
  exact hSpaced.spells h.spells_chars

theorem valid_of_spells {entry : List Char} {e : Endpoint} (h : Spells entry e) : e.Valid :=
  valid_of_ofEntry (ofEntry_eq_ok_iff.mpr h)

end Endpoint

namespace Whitelist

/-- The endpoints can be written in a setting. -/
def Writable (w : Whitelist) : Prop := ∀ e ∈ w.endpoints, e.Valid

theorem writable_of_ofSetting {setting : Option String} {w : Whitelist}
    (h : ofSetting setting = .ok w) : w.Writable := by
  cases setting with
  | none =>
    cases h
    exact nofun
  | some text =>
    intro e he
    obtain ⟨entry, _, hEntry⟩ := (mem_iff_of_ofSetting h e).mp he
    exact Endpoint.valid_of_spells hEntry

theorem ofList_endpoints (w : Whitelist) : ofList w.endpoints = w :=
  eq_of_mem_iff fun _ => mem_ofList

theorem contains_iff {w : Whitelist} {e : Endpoint} : w.contains e = true ↔ e ∈ w.endpoints := by
  simp [contains]

theorem toList_render (w : Whitelist) :
    w.render.toList = join [',', ' '] (w.endpoints.map Endpoint.chars) :=
  String.toList_ofList

theorem render_eq (w : Whitelist) :
    w.render = ", ".intercalate (w.endpoints.map Endpoint.render) := by
  have hParts : w.endpoints.map Endpoint.chars =
      (w.endpoints.map Endpoint.render).map String.toList := by
    rw [List.map_map]
    apply List.map_congr_left
    intro e _
    exact String.toList_ofList.symm
  rw [← String.toList_inj, toList_render, String.toList_intercalate, join_eq_intercalate, hParts]
  rfl

theorem not_isBlankText_render {w : Whitelist} (h : w.endpoints ≠ []) :
    ¬ IsBlankText w.render.toList := by
  rw [toList_render]
  exact Endpoint.not_isBlankText_join _ h

theorem render_eq_empty_iff {w : Whitelist} : w.render = "" ↔ w = unrestricted := by
  constructor
  · intro h
    by_cases hNil : w.endpoints = []
    · exact Whitelist.ext hNil
    · have hText := not_isBlankText_render hNil
      rw [h] at hText
      exact absurd nofun hText
  · rintro rfl
    rfl

theorem Writable.splitAll_render {w : Whitelist} (h : w.Writable) {first : Endpoint}
    {rest : List Endpoint} (hEndpoints : w.endpoints = first :: rest) :
    splitAll ',' w.render.toList = first.chars :: rest.map fun e => ' ' :: e.chars := by
  have hText : w.render.toList =
      join [','] (first.chars :: rest.map fun e => ' ' :: e.chars) := by
    have hJoin := join_append_sep [','] [' '] first.chars (rest.map Endpoint.chars)
    rw [List.map_map] at hJoin
    rw [toList_render, hEndpoints]
    exact hJoin
  rw [Writable, hEndpoints, List.forall_mem_cons] at h
  rw [hText]
  apply splitAll_join (List.cons_ne_nil _ _)
  rw [List.forall_mem_cons, List.forall_mem_map]
  refine ⟨h.1.comma_not_mem, fun e he hComma => ?_⟩
  rcases List.mem_cons.mp hComma with hSpace | hComma
  · exact absurd hSpace (by decide)
  · exact (h.2 e he).comma_not_mem hComma

/-- The entries of the written whitelist spell its endpoints, all but the first behind a space. -/
theorem Writable.spells_entries {w : Whitelist} (h : w.Writable) (hne : w.endpoints ≠ []) :
    List.Forall₂ Endpoint.Spells (entries w.render) w.endpoints := by
  obtain ⟨first, rest, hEndpoints⟩ := List.exists_cons_of_ne_nil hne
  rw [entries, if_neg (not_isBlankText_render hne), h.splitAll_render hEndpoints, hEndpoints]
  rw [Writable, hEndpoints, List.forall_mem_cons] at h
  apply List.Forall₂.cons
  · exact h.1.spells_chars
  · rw [List.forall₂_map_left_iff, List.forall₂_same]
    intro e he
    have hBlank : IsBlankText [' '] := by decide
    exact (h.2 e he).spells_blank_append hBlank

theorem Writable.ofSetting_render {w : Whitelist} (h : w.Writable) :
    ofSetting (some w.render) = .ok w := by
  by_cases hNil : w.endpoints = []
  · obtain rfl : w = unrestricted := Whitelist.ext hNil
    rfl
  · apply ofSetting_eq_ok_iff.mpr
    exact ⟨w.endpoints, h.spells_entries hNil, (ofList_endpoints w).symm⟩

/-- The text of a whitelist that comes from a setting is a setting for the same whitelist, empty
only if nothing is restricted. It lists each endpoint once in strict order, in whatever order the
set is gone through, and whatever the order and the repetition of the entries in the setting. -/
theorem render_of_setting (setting : Option String) (w : Whitelist)
    (h : ofSetting setting = .ok w) :
    ofSetting (some w.render) = .ok w ∧ (w.render = "" ↔ w = .unrestricted) ∧
    (∃ listed : List Endpoint, w.render = ", ".intercalate (listed.map Endpoint.render) ∧
      (∀ e, e ∈ listed ↔ w.contains e = true) ∧
      listed.Pairwise fun a b => a.host < b.host ∨ (a.host = b.host ∧ a.port < b.port)) ∧
    (∀ order : List Endpoint, order.Nodup → (∀ e, e ∈ order ↔ w.contains e = true) →
      ", ".intercalate ((Endpoint.sort order).map Endpoint.render) = w.render) ∧
    ∀ text other, setting = some text → Covers text other → Covers other text →
      (ofSetting (some other)).map render = .ok w.render := by
  have hWritable := writable_of_ofSetting h
  refine ⟨hWritable.ofSetting_render, render_eq_empty_iff, ⟨w.endpoints, render_eq w, ?_, ?_⟩, ?_, ?_⟩
  · exact fun e => contains_iff.symm
  · exact Endpoint.ascending_iff.mp w.ascending
  · intro order hOnce hMem
    simp only [contains_iff] at hMem
    rw [w.ascending.sort_eq hOnce hMem, render_eq]
  · rintro text other rfl hCovers hCovers'
    rw [ofSetting_eq_ok_of_covers hCovers hCovers' h]
    rfl

/-- Signs, leading zeros, blanks and an endpoint given twice are gone from the text, and a port of
five digits stands behind one of four. -/
theorem render_of_setting_respelled :
    let setting := " b2:+09092 ,[::1]:00007,b2:9092,b2:10000"
    let other := "b2:10000,b2:9092,[::1]:00007,b2:+09092,b2:10000"
    let text := "[::1]:7, b2:9092, b2:10000"
    let w : Whitelist := ⟨[⟨"[::1]", 7⟩, ⟨"b2", 9092⟩, ⟨"b2", 10000⟩], by decide⟩
    ofSetting (some setting) = .ok w ∧ w.render = text ∧ ofSetting (some text) = .ok w ∧
      ", ".intercalate ((Endpoint.sort w.endpoints.reverse).map Endpoint.render) = text ∧
      (ofSetting (some other)).map render = .ok text := by
  intro setting other text w
  have hRead : ofSetting (some setting) = .ok w := by decide +kernel
  have hText : w.render = text := by decide +kernel
  obtain ⟨hAgain, _, _, hOrder, hSame⟩ := render_of_setting (some setting) w hRead
  have hReverse := hOrder w.endpoints.reverse (by decide) fun e => by
    rw [List.mem_reverse, contains_iff]
  have hCovers : ∀ {s t : String}, (∀ entry ∈ entries s, ∃ entry' ∈ entries t,
      trim entry = trim entry') → Covers s t := by
    intro s t h entry hEntry
    obtain ⟨entry', hEntry', hTrim⟩ := h entry hEntry
    exact ⟨entry', hEntry', .ends hTrim⟩
  have hOther := hSame setting other rfl (hCovers (by decide +kernel)) (hCovers (by decide +kernel))
  rw [hText] at hAgain hReverse hOther
  exact ⟨hRead, hText, hAgain, hReverse, hOther⟩

end Whitelist

end StreamAdmission
