import StreamAdmission.Proofs.Broker.Grammar

/-!
# Why a text is no address

The faults of an entry, of a broker list and of an address, told without reading them. Each fault
rules out those above it, so a text that is not read has one fault only. Of the entries of a list
the leftmost that spells no endpoint is named, in the order in which they are written.
-/

namespace StreamAdmission

open Text

namespace Endpoint

/-- The first reason that keeps the entry from spelling an endpoint. -/
inductive Misspells (entry : List Char) : EntryFault → Prop where
  | empty (blank : IsBlankText entry) : Misspells entry .empty
  | noPort (entryText : ¬ IsBlankText entry) (colon : ':' ∉ trim entry) : Misspells entry .noPort
  | badHost {host port : List Char} (parts : trim entry = host ++ ':' :: port)
    (colon : ':' ∉ port) (hostText : ¬ IsHostText (trim host)) : Misspells entry .badHost
  | badPort {host port : List Char} {error : NumeralError}
    (parts : trim entry = host ++ ':' :: port) (colon : ':' ∉ port)
    (hostText : IsHostText (trim host)) (portText : NoNumeral 65535 (trim port) error) :
    Misspells entry (.badPort (String.ofList (trim port)) error)

theorem Misspells.of_ofEntry {entry : List Char} {reason : EntryFault}
    (h : ofEntry entry = .error reason) : Misspells entry reason := by
  by_cases hNil : trim entry = []
  · rw [ofEntry, if_pos hNil] at h
    cases h
    exact .empty (trim_eq_nil_iff.mp hNil)
  cases hSplit : splitLast? ':' (trim entry) with
  | none =>
    rw [ofEntry, if_neg hNil, hSplit] at h
    cases h
    exact .noPort (mt trim_eq_nil_iff.mpr hNil) (splitLast?_eq_none_iff.mp hSplit)
  | some sides =>
    obtain ⟨host, port⟩ := sides
    obtain ⟨hParts, hColon⟩ := splitLast?_eq_some_iff.mp hSplit
    rw [ofEntry_of_parts hParts hColon] at h
    split at h
    · rename_i hHost
      split at h
      · cases h
      · rename_i hPort
        cases h
        exact .badPort hParts hColon (isHost_iff_isHostText.mp hHost)
          (readUnsigned_eq_error_iff.mp hPort)
    · rename_i hHost
      cases h
      exact .badHost hParts hColon (mt isHost_iff_isHostText.mpr hHost)

theorem ofEntry_eq_error_iff {entry : List Char} {reason : EntryFault} :
    ofEntry entry = .error reason ↔ Misspells entry reason := by
  constructor
  · exact Misspells.of_ofEntry
  · intro h
    cases h with
    | empty blank => rw [ofEntry, if_pos (trim_eq_nil_iff.mpr blank)]
    | noPort entryText colon =>
      rw [ofEntry, if_neg (mt trim_eq_nil_iff.mp entryText), splitLast?_eq_none_iff.mpr colon]
    | badHost parts colon hostText =>
      rw [ofEntry_of_parts parts colon, if_neg (mt isHost_iff_isHostText.mp hostText)]
    | badPort parts colon hostText portText =>
      rw [ofEntry_of_parts parts colon, if_pos (isHost_iff_isHostText.mpr hostText),
        readUnsigned_eq_error_iff.mpr portText]

theorem Misspells.not_spells {entry : List Char} {reason : EntryFault}
    (h : Misspells entry reason) (e : Endpoint) : ¬ Spells entry e := by
  intro he
  have hRead := ofEntry_eq_ok_iff.mpr he
  rw [ofEntry_eq_error_iff.mpr h] at hRead
  cases hRead

/-- The entry that is named has only endpoints before it. -/
theorem ofEntries_eq_error_iff {entries : List (List Char)} {fault : AddressFault} :
    ofEntries entries = .error fault ↔
      ∃ front entry back reason, entries = front ++ entry :: back ∧
        (∀ before ∈ front, ∃ e, Spells before e) ∧ Misspells entry reason ∧
        fault = .malformedBroker (String.ofList (trim entry)) reason := by
  constructor
  · intro h
    induction entries with
    | nil => cases h
    | cons first rest ih =>
      rw [ofEntries] at h
      cases hFirst : ofEntry first with
      | error reason =>
        rw [hFirst] at h
        cases h
        refine ⟨[], first, rest, reason, rfl, List.forall_mem_nil _, ?_, rfl⟩
        exact ofEntry_eq_error_iff.mp hFirst
      | ok e =>
        rw [hFirst] at h
        cases hRest : ofEntries rest with
        | ok others =>
          simp only [hRest] at h
          cases h
        | error problem =>
          simp only [hRest] at h
          cases h
          obtain ⟨front, entry, back, reason, rfl, hFront, hEntry, hFault⟩ := ih hRest
          refine ⟨first :: front, entry, back, reason, rfl, ?_, hEntry, hFault⟩
          exact List.forall_mem_cons.mpr ⟨⟨e, ofEntry_eq_ok_iff.mp hFirst⟩, hFront⟩
  · rintro ⟨front, entry, back, reason, rfl, hFront, hEntry, rfl⟩
    induction front with
    | nil => rw [List.nil_append, ofEntries, ofEntry_eq_error_iff.mpr hEntry]
    | cons first front ih =>
      obtain ⟨⟨e, hFirst⟩, hFront⟩ := List.forall_mem_cons.mp hFront
      rw [List.cons_append, ofEntries, ofEntry_eq_ok_iff.mpr hFirst, ih hFront]

/-- The fault of a broker list: it is blank, or its leftmost entry that spells no endpoint. -/
inductive ListMisspells (text : List Char) : AddressFault → Prop where
  | blank (blank : IsBlankText text) : ListMisspells text .emptyBrokerList
  | entry {front back : List (List Char)} {entry : List Char} {reason : EntryFault}
    (listText : ¬ IsBlankText text) (parts : text = join [','] (front ++ entry :: back))
    (comma : ∀ part ∈ front ++ entry :: back, ',' ∉ part)
    (before : ∀ part ∈ front, ∃ e, Spells part e) (invalid : ∀ e, ¬ Spells entry e)
    (fault : Misspells entry reason) :
    ListMisspells text (.malformedBroker (String.ofList (trim entry)) reason)

theorem ListMisspells.eq_empty_or_malformed {text : List Char} {fault : AddressFault}
    (h : ListMisspells text fault) :
    fault = .emptyBrokerList ∨ ∃ broker reason, fault = .malformedBroker broker reason := by
  cases h with
  | blank => exact Or.inl rfl
  | entry => exact Or.inr ⟨_, _, rfl⟩

theorem readEntries_eq_error_iff {text : List Char} {fault : AddressFault} :
    readEntries text = .error fault ↔ ListMisspells text fault := by
  constructor
  · intro h
    by_cases hNil : trim text = []
    · rw [readEntries, if_pos hNil] at h
      cases h
      exact .blank (trim_eq_nil_iff.mp hNil)
    rw [readEntries, if_neg hNil] at h
    obtain ⟨front, entry, back, reason, hParts, hFront, hEntry, rfl⟩ :=
      ofEntries_eq_error_iff.mp h
    have hText : text = join [','] (front ++ entry :: back) := by rw [← hParts, join_splitAll]
    apply ListMisspells.entry (mt trim_eq_nil_iff.mpr hNil) hText _ hFront
      hEntry.not_spells hEntry
    intro part hPart
    rw [← hParts] at hPart
    exact not_mem_of_mem_splitAll hPart
  · intro h
    cases h with
    | blank blank => rw [readEntries, if_pos (trim_eq_nil_iff.mpr blank)]
    | @entry front back entry reason listText parts comma before _ fault =>
      have hSplit : splitAll ',' text = front ++ entry :: back := by
        rw [parts]
        exact splitAll_join (List.append_ne_nil_of_right_ne_nil _ (List.cons_ne_nil _ _)) comma
      have hEntries := ofEntries_eq_error_iff.mpr ⟨front, entry, back, reason, hSplit, before,
        fault, rfl⟩
      rw [readEntries, if_neg (mt trim_eq_nil_iff.mp listText), hEntries]

theorem readList_eq_error_iff {text : List Char} {fault : AddressFault} :
    readList text = .error fault ↔ ListMisspells text fault := by
  rw [readList, map_eq_error_iff, readEntries_eq_error_iff]

theorem parseList_eq_error_iff {text : String} {error : AddressError} :
    parseList text = .error error ↔
      error.address = text ∧ ListMisspells text.toList error.fault := by
  rw [parseList, AddressError.mapError_eq_error_iff, readList_eq_error_iff]

end Endpoint

namespace Address

/-- The fault of a text that is no address. What stands before and behind the last slash is looked
at only if there is a scheme, and the broker list only if there is a topic. -/
inductive Misspells (text : List Char) : AddressFault → Prop where
  | missingScheme (noScheme : ∀ secure, ¬ scheme secure <+: trim text) :
    Misspells text .missingScheme
  | noSlash {secure : Bool} {rest : List Char} (parts : trim text = scheme secure ++ rest)
    (slash : '/' ∉ rest) : Misspells text .missingTopic
  | blankTopic {secure : Bool} {before topic : List Char}
    (parts : trim text = scheme secure ++ (before ++ '/' :: topic)) (slash : '/' ∉ topic)
    (blank : IsBlankText topic) : Misspells text .missingTopic
  | brokers {secure : Bool} {before topic : List Char} {fault : AddressFault}
    (parts : trim text = scheme secure ++ (before ++ '/' :: topic)) (slash : '/' ∉ topic)
    (topicText : ¬ IsBlankText topic) (list : Endpoint.ListMisspells before fault) :
    Misspells text fault

theorem stripScheme?_eq_none_iff {text : List Char} :
    stripScheme? text = none ↔ ∀ secure, ¬ scheme secure <+: text := by
  constructor
  · rintro h secure ⟨rest, rfl⟩
    rw [stripScheme?_scheme_append] at h
    cases h
  · intro h
    cases hStrip : stripScheme? text with
    | none => rfl
    | some found =>
      obtain ⟨secure, rest⟩ := found
      exact absurd ⟨rest, (stripScheme?_eq_some_iff.mp hStrip).symm⟩ (h secure)

theorem Misspells.of_ofChars {text : List Char} {fault : AddressFault}
    (h : ofChars text = .error fault) : Misspells text fault := by
  cases hScheme : stripScheme? (trim text) with
  | none =>
    rw [ofChars, hScheme] at h
    cases h
    exact .missingScheme (stripScheme?_eq_none_iff.mp hScheme)
  | some found =>
    obtain ⟨secure, rest⟩ := found
    have hRest := stripScheme?_eq_some_iff.mp hScheme
    cases hSlash : splitLast? '/' rest with
    | none =>
      rw [ofChars, hScheme] at h
      simp only [hSlash] at h
      cases h
      exact .noSlash hRest (splitLast?_eq_none_iff.mp hSlash)
    | some sides =>
      obtain ⟨before, topic⟩ := sides
      obtain ⟨rfl, hFree⟩ := splitLast?_eq_some_iff.mp hSlash
      by_cases hTopic : IsBlankText topic
      · rw [ofChars, hScheme] at h
        simp only [hSlash, if_pos (trim_eq_nil_iff.mpr hTopic)] at h
        cases h
        exact .blankTopic hRest hFree hTopic
      · rw [ofChars_of_parts hRest hFree hTopic] at h
        rw [map_ofEndpoints_eq_error_iff, Endpoint.readList_eq_error_iff] at h
        exact .brokers hRest hFree hTopic h

theorem ofChars_eq_error_iff {text : List Char} {fault : AddressFault} :
    ofChars text = .error fault ↔ Misspells text fault := by
  constructor
  · exact Misspells.of_ofChars
  · intro h
    cases h with
    | missingScheme noScheme => rw [ofChars, stripScheme?_eq_none_iff.mpr noScheme]
    | noSlash parts slash =>
      rw [ofChars, stripScheme?_eq_some_iff.mpr parts]
      simp only [splitLast?_eq_none_iff.mpr slash]
    | @blankTopic secure before topic parts slash blank =>
      have hSlash := splitLast?_eq_some_iff.mpr ⟨Eq.refl (before ++ '/' :: topic), slash⟩
      rw [ofChars, stripScheme?_eq_some_iff.mpr parts]
      simp only [hSlash, if_pos (trim_eq_nil_iff.mpr blank)]
    | brokers parts slash topicText list =>
      rw [ofChars_of_parts parts slash topicText, map_ofEndpoints_eq_error_iff]
      exact Endpoint.readList_eq_error_iff.mpr list

/-- Reading fails exactly with the fault that the text has, and names the text as it was given. -/
theorem parse_eq_error_iff_misspells (text : String) (error : AddressError) :
    parse text = .error error ↔ error.address = text ∧ Misspells text.toList error.fault := by
  rw [parse, AddressError.mapError_eq_error_iff, ofChars_eq_error_iff]

end Address

end StreamAdmission
