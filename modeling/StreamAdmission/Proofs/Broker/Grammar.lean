import Mathlib.Data.List.Forall2
import StreamAdmission.Proofs.Broker.Canonical

/-!
# The grammar of addresses

How endpoints and addresses may be written, told without reading them: a scheme, entries with
commas between them, a slash, and a topic, with blanks in some places. The texts that can be read are
exactly those of the grammar, and what is read is the address that the text spells.
-/

namespace StreamAdmission

open Text

namespace Endpoint

/-- A host as it may be written: a name, or a numeric address between brackets. -/
inductive IsHostText : List Char → Prop where
  | name {text : List Char} (ne_nil : text ≠ [])
    (chars : ∀ c ∈ text, ('A' ≤ c ∧ c ≤ 'Z') ∨ ('a' ≤ c ∧ c ≤ 'z') ∨ ('0' ≤ c ∧ c ≤ '9') ∨
      c = '.' ∨ c = '_' ∨ c = '-') : IsHostText text
  | numeric {inner : List Char} (ne_nil : inner ≠ [])
    (chars : ∀ c ∈ inner, ('0' ≤ c ∧ c ≤ '9') ∨ ('A' ≤ c ∧ c ≤ 'F') ∨ ('a' ≤ c ∧ c ≤ 'f') ∨
      c = ':' ∨ c = '.') : IsHostText ('[' :: (inner ++ [']']))

/-- The entry is a host and a port number with the last colon between them, and blanks around. -/
inductive Spells (entry : List Char) : Endpoint → Prop where
  | mk {host port : List Char} {n : Nat} (parts : trim entry = host ++ ':' :: port)
    (colon : ':' ∉ port) (hostText : IsHostText (trim host)) (portText : IsNumeral (trim port) n)
    (bound : n ≤ 65535) : Spells entry ⟨String.ofList (trim host), UInt16.ofNat n⟩

theorem isNameChar_iff {c : Char} :
    isNameChar c = true ↔ ('A' ≤ c ∧ c ≤ 'Z') ∨ ('a' ≤ c ∧ c ≤ 'z') ∨ ('0' ≤ c ∧ c ≤ '9') ∨
      c = '.' ∨ c = '_' ∨ c = '-' := by
  simp only [isNameChar, Bool.or_eq_true, isAlphanum_iff, decide_eq_true_eq, or_assoc]

theorem isNumericChar_iff {c : Char} :
    isNumericChar c = true ↔ ('0' ≤ c ∧ c ≤ '9') ∨ ('A' ≤ c ∧ c ≤ 'F') ∨ ('a' ≤ c ∧ c ≤ 'f') ∨
      c = ':' ∨ c = '.' := by
  simp only [isNumericChar, Bool.or_eq_true, Bool.and_eq_true, isDigit_iff, decide_eq_true_eq,
    or_assoc]

theorem isHost_iff_isHostText {host : List Char} : isHost host = true ↔ IsHostText host := by
  rw [isHost_iff]
  simp only [isNameChar_iff, isNumericChar_iff]
  constructor
  · rintro (⟨hne, hName⟩ | ⟨inner, rfl, hne, hNumeric⟩)
    · exact .name hne hName
    · exact .numeric hne hNumeric
  · intro h
    cases h with
    | name hne hName => exact Or.inl ⟨hne, hName⟩
    | numeric hne hNumeric => exact Or.inr ⟨_, rfl, hne, hNumeric⟩

theorem trim_ne_nil_of_parts {entry host port : List Char}
    (parts : trim entry = host ++ ':' :: port) : trim entry ≠ [] := by
  rw [parts]
  exact List.append_ne_nil_of_right_ne_nil _ (List.cons_ne_nil _ _)

theorem ofEntry_of_parts {entry host port : List Char} (parts : trim entry = host ++ ':' :: port)
    (colon : ':' ∉ port) :
    ofEntry entry =
      if isHost (trim host) then
        match readUnsigned 65535 (trim port) with
        | .ok number => .ok ⟨String.ofList (trim host), UInt16.ofNat number⟩
        | .error error => .error (.badPort (String.ofList (trim port)) error)
      else .error .badHost := by
  have hNil := trim_ne_nil_of_parts parts
  have hSplit := splitLast?_eq_some_iff.mpr ⟨parts, colon⟩
  cases hPort : readUnsigned 65535 (trim port) <;> simp only [ofEntry, if_neg hNil, hSplit, hPort]

theorem ofEntry_eq_ok_iff {entry : List Char} {e : Endpoint} :
    ofEntry entry = .ok e ↔ Spells entry e := by
  constructor
  · intro h
    unfold ofEntry at h
    split at h
    · cases h
    split at h
    · cases h
    · rename_i host port hSplit
      obtain ⟨hParts, hColon⟩ := splitLast?_eq_some_iff.mp hSplit
      split at h
      · rename_i hHost
        split at h
        · rename_i n hPort
          cases h
          obtain ⟨hNumeral, hBound⟩ := readUnsigned_eq_ok_iff.mp hPort
          exact .mk hParts hColon (isHost_iff_isHostText.mp hHost) hNumeral hBound
        · cases h
      · cases h
  · rintro ⟨hParts, hColon, hHost, hNumeral, hBound⟩
    have hPort := readUnsigned_eq_ok_iff.mpr ⟨hNumeral, hBound⟩
    rw [ofEntry_of_parts hParts hColon, if_pos (isHost_iff_isHostText.mpr hHost), hPort]

theorem Spells.unique {entry : List Char} {e e' : Endpoint} (h : Spells entry e)
    (h' : Spells entry e') : e = e' := by
  have hRead := ofEntry_eq_ok_iff.mpr h
  rw [ofEntry_eq_ok_iff.mpr h'] at hRead
  exact (Except.ok.inj hRead).symm

/-- The two entries differ at most in the blanks at their ends and around their last colon. -/
inductive Respaced (entry other : List Char) : Prop where
  | ends (h : trim entry = trim other)
  | inner {host port host' port' : List Char} (parts : trim entry = host ++ ':' :: port)
    (colon : ':' ∉ port) (parts' : trim other = host' ++ ':' :: port') (colon' : ':' ∉ port')
    (hostSame : trim host = trim host') (portSame : trim port = trim port')

theorem Respaced.symm {entry other : List Char} (h : Respaced entry other) :
    Respaced other entry := by
  cases h with
  | ends h => exact .ends h.symm
  | inner parts colon parts' colon' hostSame portSame =>
    exact .inner parts' colon' parts colon hostSame.symm portSame.symm

theorem Respaced.spells {entry other : List Char} (h : Respaced entry other) {e : Endpoint}
    (he : Spells entry e) : Spells other e := by
  obtain ⟨hParts, hColon, hHost, hNumeral, hBound⟩ := he
  cases h with
  | ends h => exact .mk (h ▸ hParts) hColon hHost hNumeral hBound
  | inner parts colon parts' colon' hostSame portSame =>
    -- the last colon splits the entry in one way only
    have hSplit := splitLast?_eq_some_iff.mpr ⟨hParts, hColon⟩
    rw [splitLast?_eq_some_iff.mpr ⟨parts, colon⟩] at hSplit
    cases hSplit
    rw [hostSame] at hHost ⊢
    rw [portSame] at hNumeral
    exact .mk parts' colon' hHost hNumeral hBound

theorem Spells.not_isBlankText {entry : List Char} {e : Endpoint} (h : Spells entry e) :
    ¬ IsBlankText entry := by
  cases h with
  | mk hParts _ _ _ _ => exact mt trim_eq_nil_iff.mpr (trim_ne_nil_of_parts hParts)

theorem mem_iff_of_forall₂_spells {entries : List (List Char)} {endpoints : List Endpoint}
    (h : List.Forall₂ Spells entries endpoints) (e : Endpoint) :
    e ∈ endpoints ↔ ∃ entry ∈ entries, Spells entry e := by
  induction h with
  | nil => simp
  | @cons entry first entries endpoints hFirst _ ih =>
    have hHead : e = first ↔ Spells entry e :=
      ⟨fun he => he ▸ hFirst, fun hEntry => hEntry.unique hFirst⟩
    simp only [List.mem_cons, ih, hHead, exists_eq_or_imp]

theorem exists_forall₂_spells_iff {entries : List (List Char)} :
    (∃ endpoints, List.Forall₂ Spells entries endpoints) ↔
      ∀ entry ∈ entries, ∃ e, Spells entry e := by
  induction entries with
  | nil => simp
  | cons entry entries ih =>
    rw [List.forall_mem_cons, ← ih]
    constructor
    · rintro ⟨endpoints, h⟩
      cases h with
      | cons hEntry hEntries => exact ⟨⟨_, hEntry⟩, ⟨_, hEntries⟩⟩
    · rintro ⟨⟨e, hEntry⟩, endpoints, hEntries⟩
      exact ⟨e :: endpoints, .cons hEntry hEntries⟩

theorem ofEntries_eq_ok_iff {entries : List (List Char)} {endpoints : List Endpoint} :
    ofEntries entries = .ok endpoints ↔ List.Forall₂ Spells entries endpoints := by
  induction entries generalizing endpoints with
  | nil =>
    rw [List.forall₂_nil_left_iff, ofEntries]
    exact ⟨fun h => (Except.ok.inj h).symm, fun h => congrArg Except.ok h.symm⟩
  | cons entry entries ih =>
    rw [ofEntries, List.forall₂_cons_left_iff]
    constructor
    · intro h
      split at h
      · cases h
      · rename_i e hEntry
        split at h
        · cases h
        · rename_i others hOthers
          cases h
          exact ⟨e, others, ofEntry_eq_ok_iff.mp hEntry, ih.mp hOthers, rfl⟩
    · rintro ⟨e, others, hEntry, hOthers, rfl⟩
      simp only [ofEntry_eq_ok_iff.mpr hEntry, ih.mpr hOthers]

theorem readEntries_eq_ok_iff {text : List Char} {endpoints : List Endpoint} :
    readEntries text = .ok endpoints ↔ List.Forall₂ Spells (splitAll ',' text) endpoints := by
  unfold readEntries
  constructor
  · intro h
    split at h
    · cases h
    · exact ofEntries_eq_ok_iff.mp h
  · intro hEntries
    have hBlank : trim text ≠ [] := by
      rw [ne_eq, trim_eq_nil_iff]
      intro hBlank
      -- the first entry spells an endpoint, so it is not blank
      obtain ⟨entry, rest, hSplit⟩ := List.exists_cons_of_ne_nil (splitAll_ne_nil ',' text)
      rw [hSplit, List.forall₂_cons_left_iff] at hEntries
      obtain ⟨e, _, hEntry, _, _⟩ := hEntries
      refine hEntry.not_isBlankText fun c hc => hBlank c ?_
      rw [← join_splitAll ',' text, hSplit]
      exact mem_join_of_mem _ List.mem_cons_self hc
    rw [if_neg hBlank, ofEntries_eq_ok_iff.mpr hEntries]

theorem readList_eq_ok_iff {text : List Char} {brokers : List Endpoint} :
    readList text = .ok brokers ↔
      ∃ endpoints, List.Forall₂ Spells (splitAll ',' text) endpoints ∧
        sort endpoints = brokers := by
  simp only [readList, map_eq_ok_iff, readEntries_eq_ok_iff]

/-- A list that was read holds, in order, what its entries spell. -/
theorem spelled_of_parseList {text : String} {brokers : List Endpoint}
    (h : parseList text = .ok brokers) : Sorted brokers ∧
      ∃ written, List.Forall₂ Spells (splitAll ',' text.toList) written ∧ brokers.Perm written := by
  obtain ⟨written, hWritten, rfl⟩ := readList_eq_ok_iff.mp (parseList_eq_ok_iff.mp h)
  exact ⟨sort_sorted written, written, hWritten, sort_perm written⟩

end Endpoint

namespace Address

/-- The text is, but for blanks at its ends, a scheme, entries with commas between them, a slash and
a topic without a slash, and these spell the address. -/
structure Spells (text : List Char) (entries : List (List Char)) (topic : List Char)
    (a : Address) : Prop where
  parts : trim text = (if a.secure then "kafkassl://" else "kafka://").toList ++
    (join [','] entries ++ '/' :: topic)
  entries_ne_nil : entries ≠ []
  comma : ∀ entry ∈ entries, ',' ∉ entry
  slash : '/' ∉ topic
  topic_text : ¬ IsBlankText topic
  topic_eq : a.topic = String.ofList (trim topic)
  brokers : ∃ endpoints, List.Forall₂ Endpoint.Spells entries endpoints ∧
    a.brokers.Perm endpoints
  -- hosts are ASCII, so the order of their characters is that of their bytes
  ordered : a.brokers.Pairwise fun x y =>
    x.host < y.host ∨ (x.host = y.host ∧ x.port ≤ y.port)

theorem scheme_eq (secure : Bool) :
    scheme secure = (if secure then "kafkassl://" else "kafka://").toList := by
  cases secure <;> rfl

theorem stripScheme?_eq_some_iff {text rest : List Char} {secure : Bool} :
    stripScheme? text = some (secure, rest) ↔ text = scheme secure ++ rest := by
  constructor
  · intro h
    unfold stripScheme? at h
    split at h
    · rename_i after hPrefix
      cases h
      exact (List.isPrefixOf?_eq_some_iff_append_eq.mp hPrefix).symm
    · obtain ⟨after, hPrefix, hAfter⟩ := Option.map_eq_some_iff.mp h
      cases hAfter
      exact (List.isPrefixOf?_eq_some_iff_append_eq.mp hPrefix).symm
  · rintro rfl
    exact stripScheme?_scheme_append secure rest

/-- With a scheme and a topic in place, the broker list decides. -/
theorem ofChars_of_parts {text before topic : List Char} {secure : Bool}
    (parts : trim text = scheme secure ++ (before ++ '/' :: topic)) (slash : '/' ∉ topic)
    (topicText : ¬ IsBlankText topic) :
    ofChars text =
      (Endpoint.readEntries before).map (ofEndpoints · (String.ofList (trim topic)) secure) := by
  have hSlash := splitLast?_eq_some_iff.mpr ⟨Eq.refl (before ++ '/' :: topic), slash⟩
  rw [ofChars, stripScheme?_eq_some_iff.mpr parts]
  simp only [hSlash, if_neg (mt trim_eq_nil_iff.mp topicText)]
  cases Endpoint.readEntries before <;> rfl

theorem map_ofEndpoints_eq_ok_iff {brokers : List Char} {topic : String} {secure : Bool}
    {a : Address} :
    (Endpoint.readEntries brokers).map (ofEndpoints · topic secure) = .ok a ↔
      Endpoint.readList brokers = .ok a.brokers ∧ a.topic = topic ∧ a.secure = secure := by
  rw [Endpoint.readList, map_eq_ok_iff, map_eq_ok_iff]
  constructor
  · rintro ⟨endpoints, hRead, rfl⟩
    exact ⟨⟨endpoints, hRead, rfl⟩, rfl, rfl⟩
  · rintro ⟨⟨endpoints, hRead, hSort⟩, hTopic, hSecure⟩
    exact ⟨endpoints, hRead, Address.ext hSort hTopic.symm hSecure.symm⟩

theorem map_ofEndpoints_eq_error_iff {brokers : List Char} {topic : String} {secure : Bool}
    {fault : AddressFault} :
    (Endpoint.readEntries brokers).map (ofEndpoints · topic secure) = .error fault ↔
      Endpoint.readList brokers = .error fault := by
  rw [Endpoint.readList, map_eq_error_iff, map_eq_error_iff]

/-- Reading taken apart: the scheme, the broker list before the last slash, and the topic. -/
theorem parse_eq_ok_iff_parts {text : String} {a : Address} :
    parse text = .ok a ↔ ∃ before topic,
      trim text.toList = scheme a.secure ++ (before ++ '/' :: topic) ∧ '/' ∉ topic ∧
        trim topic ≠ [] ∧ Endpoint.readList before = .ok a.brokers ∧
        a.topic = String.ofList (trim topic) := by
  rw [parse_eq_ok_iff]
  constructor
  · intro h
    rw [ofChars] at h
    split at h
    · cases h
    rename_i secure rest hScheme
    split at h
    · cases h
    rename_i before topic hSlash
    split at h
    · cases h
    rename_i hTopic
    split at h
    · cases h
    rename_i endpoints hEndpoints
    cases h
    obtain ⟨rfl, hFree⟩ := splitLast?_eq_some_iff.mp hSlash
    have hBrokers := congrArg (Except.map Endpoint.sort) hEndpoints
    exact ⟨before, topic, stripScheme?_eq_some_iff.mp hScheme, hFree, hTopic, hBrokers, rfl⟩
  · rintro ⟨before, topic, hText, hFree, hTopic, hBrokers, hName⟩
    rw [ofChars_of_parts hText hFree (mt trim_eq_nil_iff.mpr hTopic)]
    exact map_ofEndpoints_eq_ok_iff.mpr ⟨hBrokers, hName, rfl⟩

theorem exists_spells_of_parse {text : String} {a : Address} (h : parse text = .ok a) :
    ∃ entries topic, Spells text.toList entries topic a := by
  obtain ⟨before, topic, hText, hFree, hTopic, hBrokers, hName⟩ := parse_eq_ok_iff_parts.mp h
  obtain ⟨endpoints, hEntries, hSort⟩ := Endpoint.readList_eq_ok_iff.mp hBrokers
  obtain ⟨hPerm, hSorted⟩ := Endpoint.sort_eq_iff.mp hSort
  exact ⟨splitAll ',' before, topic, {
    parts := by
      rw [hText, join_splitAll, scheme_eq]
    entries_ne_nil := splitAll_ne_nil ',' before
    comma := fun entry => not_mem_of_mem_splitAll
    slash := hFree
    topic_text := mt trim_eq_nil_iff.mpr hTopic
    topic_eq := hName
    brokers := ⟨endpoints, hEntries, hPerm⟩
    ordered := Endpoint.sorted_iff.mp hSorted }⟩

theorem Spells.parse_eq_ok {text : String} {entries : List (List Char)} {topic : List Char}
    {a : Address} (h : Spells text.toList entries topic a) : parse text = .ok a := by
  obtain ⟨endpoints, hEntries, hPerm⟩ := h.brokers
  have hBrokers : Endpoint.readList (join [','] entries) = .ok a.brokers := by
    -- the entries are found again in the text that joins them
    rw [Endpoint.readList_eq_ok_iff, splitAll_join h.entries_ne_nil h.comma]
    exact ⟨endpoints, hEntries, Endpoint.sort_eq_iff.mpr ⟨hPerm, a.ordered⟩⟩
  refine parse_eq_ok_iff_parts.mpr ⟨join [','] entries, topic, ?_, h.slash,
    mt trim_eq_nil_iff.mp h.topic_text, hBrokers, h.topic_eq⟩
  rw [scheme_eq]
  exact h.parts

theorem Spells.mem_brokers_iff {text : List Char} {entries : List (List Char)}
    {topic : List Char} {a : Address} (h : Spells text entries topic a) (e : Endpoint) :
    e ∈ a.brokers ↔ ∃ entry ∈ entries, Endpoint.Spells entry e := by
  obtain ⟨endpoints, hEntries, hPerm⟩ := h.brokers
  rw [hPerm.mem_iff, Endpoint.mem_iff_of_forall₂_spells hEntries]

/-- A text is read as an address exactly if the grammar has it as a spelling of that address. -/
theorem parse_eq_ok_iff_spells (text : String) (a : Address) :
    parse text = .ok a ↔ ∃ entries topic, Spells text.toList entries topic a := by
  constructor
  · exact exists_spells_of_parse
  · rintro ⟨entries, topic, h⟩
    exact h.parse_eq_ok

end Address

end StreamAdmission
