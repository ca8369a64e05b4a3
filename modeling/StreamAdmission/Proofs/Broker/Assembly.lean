import Mathlib.Data.List.Perm.Basic
import StreamAdmission.Proofs.Broker.Failure

/-!
# Addresses put together from a broker list and a topic

A scheme, any text and a topic are read as the text alone is read as a broker list: nothing in the
text is taken for a part of the scheme or of the topic. So an address and a bare list fail alike,
and the order in which the entries are written matters to neither.
-/

namespace StreamAdmission

open Text

namespace Endpoint

/-- The list with commas between the entries. -/
def listed (entries : List String) : String := ",".intercalate entries

theorem toList_listed (entries : List String) :
    (listed entries).toList = join [','] (entries.map String.toList) := by
  rw [listed, String.toList_intercalate, join_eq_intercalate]
  rfl

/-- Texts that commas can keep apart. -/
structure Listable (entries : List String) : Prop where
  ne_nil : entries ≠ []
  comma : ∀ entry ∈ entries, ',' ∉ entry.toList

section Listable
variable {entries entries' : List String}

theorem Listable.of_perm (h : Listable entries) (perm : entries.Perm entries') :
    Listable entries' := by
  constructor
  · rintro rfl
    exact h.ne_nil perm.eq_nil
  · exact fun entry hEntry => h.comma entry (perm.mem_iff.mpr hEntry)

theorem parseList_listed (h : Listable entries) (brokers : List Endpoint) :
    parseList (listed entries) = .ok brokers ↔
      ∃ endpoints, List.Forall₂ Spells (entries.map String.toList) endpoints ∧
        sort endpoints = brokers := by
  have hSplit : splitAll ',' (listed entries).toList = entries.map String.toList := by
    rw [toList_listed]
    apply splitAll_join (mt List.map_eq_nil_iff.mp h.ne_nil)
    rw [List.forall_mem_map]
    exact h.comma
  rw [parseList_eq_ok_iff, readList_eq_ok_iff, hSplit]

theorem exists_parseList_listed_iff (h : Listable entries) :
    (∃ brokers, parseList (listed entries) = .ok brokers) ↔
      ∀ entry ∈ entries, ∃ e, Spells entry.toList e := by
  have hSpelled := @exists_forall₂_spells_iff (entries.map String.toList)
  rw [List.forall_mem_map] at hSpelled
  rw [← hSpelled]
  simp only [parseList_listed h]
  constructor
  · rintro ⟨_, endpoints, hEntries, _⟩
    exact ⟨endpoints, hEntries⟩
  · rintro ⟨endpoints, hEntries⟩
    exact ⟨sort endpoints, endpoints, hEntries, rfl⟩

theorem parseList_listed_of_perm (h : Listable entries) (perm : entries.Perm entries')
    {brokers : List Endpoint} (hRead : parseList (listed entries) = .ok brokers) :
    parseList (listed entries') = .ok brokers := by
  obtain ⟨endpoints, hEntries, rfl⟩ := (parseList_listed h brokers).mp hRead
  -- the endpoints of the reordered entries are those of the entries, reordered in the same way
  obtain ⟨endpoints', hEntries', hPerm⟩ :=
    List.perm_comp_forall₂ (perm.map String.toList).symm hEntries
  apply (parseList_listed (h.of_perm perm) _).mpr
  refine ⟨endpoints', hEntries', sort_eq_iff.mpr ⟨?_, sort_sorted endpoints⟩⟩
  exact (sort_perm endpoints).trans hPerm.symm

theorem sameOutcome_parseList_listed (h : Listable entries) (perm : entries.Perm entries') :
    SameOutcome (parseList (listed entries)) (parseList (listed entries')) := by
  apply sameOutcome_of_iff
  intro brokers
  constructor
  · exact parseList_listed_of_perm h perm
  · exact parseList_listed_of_perm (h.of_perm perm) perm.symm

end Listable

end Endpoint

namespace Address

/-- An address with any text as its broker list. -/
def assemble (secure : Bool) (brokers topic : String) : String :=
  (if secure then "kafkassl://" else "kafka://") ++ brokers ++ "/" ++ topic

theorem toList_assemble (secure : Bool) (brokers topic : String) :
    (assemble secure brokers topic).toList =
      scheme secure ++ (brokers.toList ++ '/' :: topic.toList) := by
  rw [assemble, String.toList_append, String.toList_append, String.toList_append, ← scheme_eq,
    List.append_assoc, List.append_assoc]
  rfl

/-- Only the end of the topic is trimmed away, since the scheme is no blank. -/
theorem exists_trim_eq (secure : Bool) (brokers : List Char) {topic : List Char}
    (topicText : ¬ IsBlankText topic) :
    ∃ rest, trim (scheme secure ++ (brokers ++ '/' :: topic)) =
        scheme secure ++ (brokers ++ '/' :: rest) ∧
      trim rest = trim topic ∧ ∀ c ∈ rest, c ∈ topic := by
  obtain ⟨before, after, hBefore, hAfter, _, hTopic⟩ := exists_eq_append_trim topic
  have hEnds : IsTrimmed (scheme secure ++ (brokers ++ '/' :: before) ++ trim topic) :=
    (isTrimmed_scheme secure).append (isTrimmed_trim topic) (scheme_ne_nil secure)
      (mt trim_eq_nil_iff.mp topicText) _
  have hWhole : scheme secure ++ (brokers ++ '/' :: topic) =
      scheme secure ++ (brokers ++ '/' :: before) ++ trim topic ++ after := by
    conv_lhs => rw [hTopic]
    simp only [List.append_assoc, List.cons_append]
  refine ⟨before ++ trim topic, ?_, ?_, ?_⟩
  · rw [hWhole, trim_append_blank hAfter, trim_eq_self hEnds]
    simp only [List.append_assoc, List.cons_append]
  · rw [trim_blank_append hBefore, trim_trim]
  · intro c hc
    rw [hTopic, ← List.append_assoc]
    exact List.mem_append_left _ hc

section Assembled
variable {topic : String} (slash : '/' ∉ topic.toList) (topicText : ¬ IsBlankText topic.toList)
include slash topicText

theorem ofChars_assemble (secure : Bool) (brokers : String) :
    ofChars (assemble secure brokers topic).toList = (Endpoint.readEntries brokers.toList).map
      (ofEndpoints · (String.ofList (trim topic.toList)) secure) := by
  obtain ⟨rest, hText, hRest, hMem⟩ := exists_trim_eq secure brokers.toList topicText
  have hBlank : ¬ IsBlankText rest := by
    rw [← trim_eq_nil_iff, hRest, trim_eq_nil_iff]
    exact topicText
  rw [toList_assemble, ofChars_of_parts hText (fun hSlash => slash (hMem '/' hSlash)) hBlank, hRest]

theorem parse_assemble_eq_ok_iff {secure : Bool} {brokers : String} {a : Address} :
    parse (assemble secure brokers topic) = .ok a ↔ Endpoint.parseList brokers = .ok a.brokers ∧
      a.topic = String.ofList (trim topic.toList) ∧ a.secure = secure := by
  rw [parse_eq_ok_iff, ofChars_assemble slash topicText, map_ofEndpoints_eq_ok_iff,
    Endpoint.parseList_eq_ok_iff]

theorem exists_parse_assemble_iff {secure : Bool} {brokers : String} {endpoints : List Endpoint} :
    (∃ a, parse (assemble secure brokers topic) = .ok a ∧ a.brokers = endpoints) ↔
      Endpoint.parseList brokers = .ok endpoints := by
  simp only [parse_assemble_eq_ok_iff slash topicText]
  constructor
  · rintro ⟨a, ⟨hList, _⟩, rfl⟩
    exact hList
  · intro hList
    obtain ⟨hSorted, _⟩ := Endpoint.spelled_of_parseList hList
    exact ⟨⟨endpoints, String.ofList (trim topic.toList), secure, hSorted⟩, ⟨hList, rfl, rfl⟩, rfl⟩

theorem parse_assemble_eq_error_iff {secure : Bool} {brokers : String} {error : AddressError} :
    parse (assemble secure brokers topic) = .error error ↔
      error.address = assemble secure brokers topic ∧
        Endpoint.parseList brokers = .error ⟨brokers, error.fault⟩ := by
  rw [parse, AddressError.mapError_eq_error_iff, ofChars_assemble slash topicText,
    map_ofEndpoints_eq_error_iff, Endpoint.parseList, AddressError.mapError_eq_error_iff]
  simp only [true_and]

theorem sameOutcome_parse_assemble (secure : Bool) {brokers brokers' : String}
    (h : SameOutcome (Endpoint.parseList brokers) (Endpoint.parseList brokers')) :
    SameOutcome (parse (assemble secure brokers topic))
      (parse (assemble secure brokers' topic)) := by
  apply sameOutcome_of_iff
  intro a
  simp only [parse_assemble_eq_ok_iff slash topicText, h.eq_ok_iff]

end Assembled

/-- The order of the entries does not matter: with the entries in another order, an address and a
bare list give the same value, and with it the same canonical text and the same list for clients,
or both fail, and they fail exactly if some entry spells no endpoint. -/
theorem parse_of_perm (secure : Bool) (entries entries' : List String) (topic : String)
    (hne : entries ≠ []) (comma : ∀ entry ∈ entries, ',' ∉ entry.toList)
    (perm : entries.Perm entries') (slash : '/' ∉ topic.toList)
    (topicText : ¬ IsBlankText topic.toList) :
    let read := fun list => parse (assemble secure (Endpoint.listed list) topic)
    SameOutcome (read entries) (read entries') ∧
      SameOutcome ((read entries).map canonical) ((read entries').map canonical) ∧
      SameOutcome ((read entries).map bootstrapServers) ((read entries').map bootstrapServers) ∧
      SameOutcome (Endpoint.parseList (Endpoint.listed entries))
        (Endpoint.parseList (Endpoint.listed entries')) ∧
      ((∃ a, read entries = .ok a) ↔ ∀ entry ∈ entries, ∃ e, Endpoint.Spells entry.toList e) := by
  intro read
  have hEntries : Endpoint.Listable entries := ⟨hne, comma⟩
  have hList := Endpoint.sameOutcome_parseList_listed hEntries perm
  have hRead : SameOutcome (read entries) (read entries') :=
    sameOutcome_parse_assemble slash topicText secure hList
  refine ⟨hRead, hRead.map canonical, hRead.map bootstrapServers, hList, ?_⟩
  rw [← Endpoint.exists_parseList_listed_iff hEntries]
  constructor
  · rintro ⟨a, ha⟩
    exact ⟨a.brokers, (exists_parse_assemble_iff slash topicText).mp ⟨a, ha, rfl⟩⟩
  · rintro ⟨endpoints, hEndpoints⟩
    obtain ⟨a, ha, _⟩ := (exists_parse_assemble_iff slash topicText).mpr hEndpoints
    exact ⟨a, ha⟩

/-- Blanks, a sign, leading zeros, ports in numeric order and an endpoint given twice; and a list of
which two entries spell no endpoint, so that another of them comes first in another order. -/
theorem parse_of_perm_spaced :
    let read := fun list => parse (assemble true (Endpoint.listed list) " a:b,c ")
    let entries := [" b1:10000", "[::1]:+07\t", "b1:09092", "b1:9092"]
    let broken := ["b1:1", "x/y:2", ""]
    read entries =
        .ok ⟨[⟨"[::1]", 7⟩, ⟨"b1", 9092⟩, ⟨"b1", 9092⟩, ⟨"b1", 10000⟩], "a:b,c", true,
          by decide⟩ ∧
      SameOutcome (read entries) (read ["b1:9092", "[::1]:+07\t", " b1:10000", "b1:09092"]) ∧
      (∀ a, read broken ≠ .ok a) ∧ SameOutcome (read broken) (read ["", "x/y:2", "b1:1"]) := by
  intro read entries broken
  obtain ⟨hSame, _⟩ := parse_of_perm true entries
    ["b1:9092", "[::1]:+07\t", " b1:10000", "b1:09092"] " a:b,c " (by decide) (by decide)
    (by decide) (by decide) (by decide)
  obtain ⟨hBroken, _, _, _, hSpelled⟩ := parse_of_perm true broken ["", "x/y:2", "b1:1"]
    " a:b,c " (by decide) (by decide) (by decide) (by decide) (by decide)
  refine ⟨by decide +kernel, hSame, ?_, hBroken⟩
  intro a hRead
  obtain ⟨e, he⟩ := hSpelled.mp ⟨a, hRead⟩ "" (by decide)
  exact he.not_isBlankText (by decide)

/-- An address is read as the text between its scheme and its topic is read as a broker list: with
the same brokers, those that the entries spell, in order; or with the same fault, which then is one of
a broker list. -/
theorem parse_assemble_agrees (secure : Bool) (brokers topic : String)
    (slash : '/' ∉ topic.toList) (topicText : ¬ IsBlankText topic.toList) :
    (∀ endpoints, Endpoint.parseList brokers = .ok endpoints ↔
      ∃ a, parse (assemble secure brokers topic) = .ok a ∧ a.brokers = endpoints) ∧
    (∀ endpoints, Endpoint.parseList brokers = .ok endpoints →
      endpoints.Pairwise (fun x y => x.host < y.host ∨ (x.host = y.host ∧ x.port ≤ y.port)) ∧
      ∃ written, List.Forall₂ Endpoint.Spells (splitAll ',' brokers.toList) written ∧
        endpoints.Perm written) ∧
    (∀ error, Endpoint.parseList brokers = .error error → error.address = brokers ∧
      parse (assemble secure brokers topic) =
        .error ⟨assemble secure brokers topic, error.fault⟩) ∧
    ∀ error, parse (assemble secure brokers topic) = .error error →
      error.address = assemble secure brokers topic ∧
      Endpoint.parseList brokers = .error ⟨brokers, error.fault⟩ ∧
      (error.fault = .emptyBrokerList ∨
        ∃ broker reason, error.fault = .malformedBroker broker reason) := by
  refine ⟨fun endpoints => (exists_parse_assemble_iff slash topicText).symm, ?_, ?_, ?_⟩
  · intro endpoints h
    obtain ⟨hSorted, hSpelled⟩ := Endpoint.spelled_of_parseList h
    exact ⟨Endpoint.sorted_iff.mp hSorted, hSpelled⟩
  · intro error h
    obtain ⟨rfl, _⟩ := Endpoint.parseList_eq_error_iff.mp h
    exact ⟨rfl, (parse_assemble_eq_error_iff slash topicText).mpr ⟨rfl, h⟩⟩
  · intro error h
    obtain ⟨hAddress, hList⟩ := (parse_assemble_eq_error_iff slash topicText).mp h
    obtain ⟨_, hFault⟩ := Endpoint.parseList_eq_error_iff.mp hList
    exact ⟨hAddress, hList, hFault.eq_empty_or_malformed⟩

/-- A list that could be mistaken for a part of the address, once with brokers, of which the last that
is written comes first, and once without. -/
theorem parse_assemble_agrees_slashed :
    let endpoints : List Endpoint := [⟨"[::1]", 7⟩, ⟨"b", 80⟩, ⟨"b", 443⟩]
    ((∃ a, parse (assemble true "\tb:443 , b:080,[::1]:+07" " a:b,c ") = .ok a ∧
        a.brokers = endpoints) ∧
      Endpoint.parseList "\tb:443 , b:080,[::1]:+07" = .ok endpoints ∧
      endpoints.Pairwise (fun x y => x.host < y.host ∨ (x.host = y.host ∧ x.port ≤ y.port)) ∧
      ∃ written, List.Forall₂ Endpoint.Spells ["\tb:443 ".toList, " b:080".toList,
        "[::1]:+07".toList] written ∧ endpoints.Perm written) ∧
      parse (assemble false "ssl://a:1, kafka://b/c:2 ,:" "t") =
        .error ⟨"kafka://ssl://a:1, kafka://b/c:2 ,:/t", .malformedBroker "ssl://a:1" .badHost⟩ ∧
      Endpoint.parseList "ssl://a:1, kafka://b/c:2 ,:" =
        .error ⟨"ssl://a:1, kafka://b/c:2 ,:", .malformedBroker "ssl://a:1" .badHost⟩ := by
  intro endpoints
  obtain ⟨hBrokers, hOrder, _⟩ := parse_assemble_agrees true "\tb:443 , b:080,[::1]:+07" " a:b,c "
    (by decide) (by decide)
  obtain ⟨_, _, hError, _⟩ := parse_assemble_agrees false "ssl://a:1, kafka://b/c:2 ,:" "t"
    (by decide) (by decide)
  have hRead : Endpoint.parseList "\tb:443 , b:080,[::1]:+07" = .ok endpoints := by decide +kernel
  have hList : Endpoint.parseList "ssl://a:1, kafka://b/c:2 ,:" =
      .error ⟨"ssl://a:1, kafka://b/c:2 ,:", .malformedBroker "ssl://a:1" .badHost⟩ := by
    decide +kernel
  exact ⟨⟨(hBrokers _).mp hRead, hRead, hOrder _ hRead⟩, (hError _ hList).2, hList⟩

end Address

end StreamAdmission
