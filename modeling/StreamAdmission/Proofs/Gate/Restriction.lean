import StreamAdmission.Gate.Admission
import StreamAdmission.Proofs.Broker.Whitelist

/-!
# From the whitelist setting to the decision

A gate is unrestricted only if its setting is absent or blank, and there is no gate if an entry of
the setting spells no endpoint. Otherwise an address is allowed exactly if one of its entries spells
the same endpoint as one of the setting, in whatever way either is written.
-/

namespace StreamAdmission

open Text

namespace Whitelist

theorem allows_unrestricted (a : Address) : unrestricted.allows a = true := rfl

theorem allows_iff_of_ne_nil {w : Whitelist} (h : w.endpoints ≠ []) {a : Address} :
    w.allows a = true ↔ ∃ e ∈ a.brokers, e ∈ w.endpoints := by
  simp [allows, isEmpty, contains, h]

/-- The decision told in the two texts: some entries of them spell the same endpoint. -/
theorem allows_iff_exists_spells {setting : String} {w : Whitelist}
    (hText : ¬ IsBlankText setting.toList) (hRead : ofSetting (some setting) = .ok w)
    {text : List Char} {others : List (List Char)} {topic : List Char} {a : Address}
    (ha : Address.Spells text others topic a) :
    w.allows a = true ↔ ∃ entry ∈ entries setting, ∃ other ∈ others, ∃ e,
      Endpoint.Spells entry e ∧ Endpoint.Spells other e := by
  rw [allows_iff_of_ne_nil (endpoints_ne_nil_of_ofSetting hText hRead)]
  simp only [mem_iff_of_ofSetting hRead, ha.mem_brokers_iff]
  constructor
  · rintro ⟨e, ⟨other, hOther, he⟩, entry, hEntry, he'⟩
    exact ⟨entry, hEntry, other, hOther, e, he', he⟩
  · rintro ⟨entry, hEntry, other, hOther, e, he', he⟩
    exact ⟨e, ⟨other, hOther, he⟩, entry, hEntry, he'⟩

theorem exists_ofSetting_eq_error_iff {setting : String} :
    (∃ error, ofSetting (some setting) = .error error) ↔
      ¬ IsBlankText setting.toList ∧
        ∃ entry ∈ splitAll ',' setting.toList, ∀ e, ¬ Endpoint.Spells entry e := by
  have hOk : (∃ error, ofSetting (some setting) = .error error) ↔
      ¬ ∃ w, ofSetting (some setting) = .ok w := by
    cases ofSetting (some setting) with
    | error error => simp
    | ok w => simp
  rw [hOk, exists_ofSetting_eq_ok_iff, entries]
  split
  · rename_i hBlank
    simp [hBlank]
  · rename_i hText
    simp [hText]

end Whitelist

namespace Gate

theorem ofSettings_eq_ok_iff {settings : Settings} {gate : Gate} :
    ofSettings settings = .ok gate ↔ gate.settings = settings ∧
      Whitelist.ofSetting settings.whiteListedClusters = .ok gate.whitelist := by
  rw [ofSettings]
  cases Whitelist.ofSetting settings.whiteListedClusters with
  | error error =>
    constructor
    · exact nofun
    · rintro ⟨_, hRead⟩
      cases hRead
  | ok w =>
    constructor
    · intro h
      cases h
      exact ⟨rfl, rfl⟩
    · rintro ⟨rfl, hRead⟩
      cases hRead
      rfl

theorem exists_ofSettings_eq_error_iff {settings : Settings} :
    (∃ error, ofSettings settings = .error error) ↔
      ∃ error, Whitelist.ofSetting settings.whiteListedClusters = .error error := by
  rw [ofSettings]
  cases Whitelist.ofSetting settings.whiteListedClusters with
  | error error => exact iff_of_true ⟨_, rfl⟩ ⟨_, rfl⟩
  | ok w => exact iff_of_false (nofun) (nofun)

theorem exists_ofSettings_eq_error_iff_malformed {settings : Settings} :
    (∃ error, ofSettings settings = .error error) ↔
      ∃ setting, settings.whiteListedClusters = some setting ∧
        ¬ IsBlankText setting.toList ∧
        ∃ entry ∈ splitAll ',' setting.toList, ∀ e, ¬ Endpoint.Spells entry e := by
  rw [exists_ofSettings_eq_error_iff]
  cases settings.whiteListedClusters with
  | none => exact iff_of_false (nofun) (nofun)
  | some setting => simp only [Whitelist.exists_ofSetting_eq_error_iff, Option.some.injEq,
      exists_eq_left']

/-- What a whitelist setting means: without one, or with a blank one, every address is allowed; any
other is malformed, and there is no gate, or restricts the gate to the addresses of which an entry
spells an endpoint that an entry of the setting spells too. Order, repetition and blanks of the
entries do not matter. -/
theorem whitelist_of_setting (setting : String) :
    (Whitelist.ofSetting none = .ok .unrestricted ∧
      (IsBlankText setting.toList →
        Whitelist.ofSetting (some setting) = .ok .unrestricted) ∧
      ∀ a, Whitelist.unrestricted.allows a = true) ∧
    (¬ IsBlankText setting.toList →
      (∀ w, Whitelist.ofSetting (some setting) = .ok w → w.endpoints ≠ []) ∧
      ∀ settings gate, settings.whiteListedClusters = some setting →
        ofSettings settings = .ok gate → gate.whitelist.endpoints ≠ []) ∧
    (∀ settings : Settings, (∃ error, ofSettings settings = .error error) ↔
      ∃ s, settings.whiteListedClusters = some s ∧ ¬ IsBlankText s.toList ∧
        ∃ entry ∈ splitAll ',' s.toList, ∀ e, ¬ Endpoint.Spells entry e) ∧
    (¬ IsBlankText setting.toList →
      ∀ w, Whitelist.ofSetting (some setting) = .ok w →
      ∀ text a, Address.parse text = .ok a →
        ∃ others topic, Address.Spells text.toList others topic a ∧
          (w.allows a = true ↔
            ∃ entry ∈ splitAll ',' setting.toList, ∃ other ∈ others, ∃ e,
              Endpoint.Spells entry e ∧ Endpoint.Spells other e)) ∧
    ∀ other, Whitelist.Covers setting other → Whitelist.Covers other setting →
      ∀ w, Whitelist.ofSetting (some setting) = .ok w ↔
        Whitelist.ofSetting (some other) = .ok w := by
  refine ⟨⟨rfl, Whitelist.ofSetting_of_isBlankText, Whitelist.allows_unrestricted⟩, ?_,
    fun settings => exists_ofSettings_eq_error_iff_malformed, ?_, ?_⟩
  · intro hText
    refine ⟨fun w => Whitelist.endpoints_ne_nil_of_ofSetting hText, ?_⟩
    intro settings gate hSetting hGate
    obtain ⟨_, hRead⟩ := ofSettings_eq_ok_iff.mp hGate
    rw [hSetting] at hRead
    exact Whitelist.endpoints_ne_nil_of_ofSetting hText hRead
  · intro hText w hRead text a hParse
    obtain ⟨others, topic, ha⟩ := Address.exists_spells_of_parse hParse
    refine ⟨others, topic, ha, ?_⟩
    rw [Whitelist.allows_iff_exists_spells hText hRead ha, Whitelist.entries, if_neg hText]
  · intro other h h' w
    exact ⟨Whitelist.ofSetting_eq_ok_of_covers h h', Whitelist.ofSetting_eq_ok_of_covers h' h⟩

/-- Two entries written again in another order, one of them twice and with other blanks; a blank
setting; and one with an empty entry. -/
theorem whitelist_of_setting_spaced :
    let setting := "b2 :+09092,[::1]:7"
    let other := "[::1]:7 ,b2: +09092,\t[::1]:7"
    Whitelist.ofSetting (some " \t") = .ok .unrestricted ∧
    (∃ error, ofSettings ⟨some "b1:1,,b2:2", none, none, 30000, ∅⟩ = .error error) ∧
    ∃ w, Whitelist.ofSetting (some setting) = .ok w ∧ w.endpoints ≠ [] ∧
      Whitelist.ofSetting (some other) = .ok w ∧
      ∃ a, Address.parse "kafkassl://x:1, b2:9092/t" = .ok a ∧
        ∃ others topic, Address.Spells "kafkassl://x:1, b2:9092/t".toList others topic a ∧
          ∃ entry ∈ splitAll ',' setting.toList, ∃ other ∈ others, ∃ e,
            Endpoint.Spells entry e ∧ Endpoint.Spells other e := by
  intro setting other
  obtain ⟨⟨_, hBlank, _⟩, _⟩ := whitelist_of_setting " \t"
  obtain ⟨_, hNonempty, hMalformed, hAllows, hSame⟩ := whitelist_of_setting setting
  have hEmpty : ∀ e, ¬ Endpoint.Spells [] e := fun e he => he.not_isBlankText (by decide)
  have hText : ¬ IsBlankText setting.toList := by decide
  have hRead : Whitelist.ofSetting (some setting) =
      .ok ⟨[⟨"[::1]", 7⟩, ⟨"b2", 9092⟩], by decide⟩ := by decide +kernel
  have hParse : Address.parse "kafkassl://x:1, b2:9092/t" =
      .ok ⟨[⟨"b2", 9092⟩, ⟨"x", 1⟩], "t", true, by decide⟩ := by rfl
  have hName : Endpoint.Respaced "b2 :+09092".toList "b2: +09092".toList :=
    @Endpoint.Respaced.inner _ _ "b2 ".toList "+09092".toList "b2".toList " +09092".toList
      rfl (by decide) rfl (by decide) rfl rfl
  have hEntries : Whitelist.entries setting = ["b2 :+09092".toList, "[::1]:7".toList] := by
    decide +kernel
  have hEntries' : Whitelist.entries other =
      ["[::1]:7 ".toList, "b2: +09092".toList, "\t[::1]:7".toList] := by decide +kernel
  have hCovers : Whitelist.Covers setting other := by
    rw [Whitelist.Covers, hEntries, hEntries', List.forall_mem_cons, List.forall_mem_singleton]
    exact ⟨⟨_, by decide, hName⟩, ⟨"[::1]:7 ".toList, by decide, .ends rfl⟩⟩
  have hCovers' : Whitelist.Covers other setting := by
    rw [Whitelist.Covers, hEntries, hEntries', List.forall_mem_cons, List.forall_mem_cons,
      List.forall_mem_singleton]
    exact ⟨⟨"[::1]:7".toList, by decide, .ends rfl⟩, ⟨_, by decide, hName.symm⟩,
      ⟨"[::1]:7".toList, by decide, .ends rfl⟩⟩
  obtain ⟨others, topic, ha, hIff⟩ := hAllows hText _ hRead _ _ hParse
  exact ⟨hBlank (by decide), (hMalformed _).mpr ⟨_, rfl, by decide, [], by decide, hEmpty⟩, _,
    hRead, (hNonempty hText).1 _ hRead, (hSame other hCovers hCovers' _).mp hRead, _, hParse,
    others, topic, ha, hIff.mp (by decide)⟩

end Gate

end StreamAdmission
