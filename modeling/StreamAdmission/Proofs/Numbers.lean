import StreamAdmission.Proofs.Broker.Failure
import StreamAdmission.Proofs.Settings.Properties
import StreamAdmission.Proofs.Text.Bounded

/-!
# Numbers in broker lists and in properties

The two numbers that are written in decimal: the port of a broker entry, of 16 bits, and the timeout
among the properties, of 64 bits. Each is the whole value of its numeral, or else the failure tells
what is complained of in the text: for a port behind that text, also where the entry stands in a
broker list or in an address.
-/

namespace StreamAdmission

open Text

namespace Endpoint

/-- The entry has a proper host and, behind its last colon, the text of a port. -/
inductive HasPort (entry : List Char) : List Char → List Char → Prop where
  | mk {host port : List Char} (parts : trim entry = host ++ ':' :: port) (colon : ':' ∉ port)
    (hostText : IsHostText (trim host)) : HasPort entry (trim host) (trim port)

section Port
variable {entry host port : List Char}

theorem HasPort.ofEntry_eq (h : HasPort entry host port) :
    ofEntry entry =
      ((readUnsigned (UInt16.size - 1) port).map (⟨String.ofList host, UInt16.ofNat ·⟩)).mapError
        (.badPort (String.ofList port)) := by
  cases h with
  | @mk host port parts colon hostText =>
    have hSize : UInt16.size - 1 = 65535 := rfl
    rw [ofEntry_of_parts parts colon, if_pos (isHost_iff_isHostText.mpr hostText), hSize]
    cases readUnsigned 65535 (trim port) <;> rfl

theorem HasPort.ofEntry_eq_ok_iff (h : HasPort entry host port) {e : Endpoint} :
    ofEntry entry = .ok e ↔ e.host = String.ofList host ∧ IsNumeral port e.port.toNat := by
  rw [h.ofEntry_eq, mapError_eq_ok_iff, map_eq_ok_iff]
  constructor
  · rintro ⟨n, hRead, rfl⟩
    obtain ⟨hNumeral, hBound⟩ := readUnsigned_eq_ok_iff.mp hRead
    -- a number within the bound is not cut off
    have hSame : (UInt16.ofNat n).toNat = n :=
      UInt16.toNat_ofNat_of_lt' (Nat.lt_of_le_pred (by decide) hBound)
    exact ⟨rfl, hSame.symm ▸ hNumeral⟩
  · rintro ⟨hHost, hNumeral⟩
    have hBound : e.port.toNat ≤ UInt16.size - 1 := Nat.le_sub_one_of_lt e.port.toNat_lt_size
    refine ⟨e.port.toNat, readUnsigned_eq_ok_iff.mpr ⟨hNumeral, hBound⟩, ?_⟩
    rw [← hHost, UInt16.ofNat_toNat]

/-- The reason for a bad port holds the text of it and what is complained of there. -/
theorem HasPort.exists_ofEntry_eq_error_iff (h : HasPort entry host port) {message : String} :
    (∃ reason, ofEntry entry = .error reason ∧
      reason.message = "invalid port '" ++ String.ofList port ++ "': " ++ message) ↔
      Complaint (UInt16.size - 1) port message := by
  rw [h.ofEntry_eq, ← exists_readUnsigned_eq_error_iff]
  simp only [mapError_eq_error_iff, map_eq_error_iff]
  constructor
  · rintro ⟨_, ⟨error, hRead, rfl⟩, hMessage⟩
    exact ⟨error, hRead, (String.append_right_inj _).mp hMessage⟩
  · rintro ⟨error, hRead, rfl⟩
    exact ⟨_, ⟨error, hRead, rfl⟩, rfl⟩

theorem HasPort.not_isBlankText (h : HasPort entry host port) : ¬ IsBlankText entry := by
  cases h with
  | mk parts _ _ => exact mt trim_eq_nil_iff.mpr (trim_ne_nil_of_parts parts)

/-- Reading the broker list comes to the entry: those before it spell endpoints. -/
inductive Reaches (list entry : List Char) : Prop where
  | mk {front back : List (List Char)} (parts : list = join [','] (front ++ entry :: back))
    (comma : ∀ part ∈ front ++ entry :: back, ',' ∉ part)
    (before : ∀ part ∈ front, ∃ e, Spells part e)

theorem Reaches.readList_eq_error {list : List Char} {reason : EntryFault}
    (h : Reaches list entry) (hText : ¬ IsBlankText entry)
    (hEntry : ofEntry entry = .error reason) :
    readList list = .error (.malformedBroker (String.ofList (trim entry)) reason) := by
  obtain ⟨parts, comma, before⟩ := h
  have hList : ¬ IsBlankText list := by
    intro hBlank
    refine hText fun c hc => hBlank c ?_
    rw [parts]
    exact mem_join_of_mem _ (List.mem_append_right _ List.mem_cons_self) hc
  have hFault := ofEntry_eq_error_iff.mp hEntry
  exact readList_eq_error_iff.mpr (.entry hList parts comma before hFault.not_spells hFault)

end Port

end Endpoint

namespace Address

/-- The text has a scheme and a topic, and the broker list stands between them. -/
inductive HasList (text list : List Char) : Prop where
  | mk {secure : Bool} {topic : List Char}
    (parts : trim text = scheme secure ++ (list ++ '/' :: topic)) (slash : '/' ∉ topic)
    (topicText : ¬ IsBlankText topic)

theorem HasList.parse_eq_error {text : String} {list : List Char} {fault : AddressFault}
    (h : HasList text.toList list) (hList : Endpoint.readList list = .error fault) :
    parse text = .error ⟨text, fault⟩ := by
  obtain ⟨parts, slash, topicText⟩ := h
  rw [parse, ofChars_of_parts parts slash topicText, map_ofEndpoints_eq_error_iff.mpr hList]
  rfl

end Address

namespace Settings
variable {properties : Table String String}

section Timeout
variable {given : String} (h : properties.get? "metadataTimeoutMs" = some given)
include h

theorem exists_ofProperties_eq_ok_iff {timeout : UInt64} :
    (∃ settings, ofProperties properties = .ok settings ∧ settings.metadataTimeoutMs = timeout) ↔
      IsNumeral (trim given.toList) timeout.toNat := by
  rw [← readUnsigned_map_eq_ok_iff,
    ← mapError_eq_ok_iff (f := SettingsError.invalidValue timeoutKey), ← timeoutOf_of_some h,
    ofProperties]
  cases timeoutOf properties with
  | error e => simp
  | ok found => simp

theorem exists_ofProperties_eq_invalidValue_iff {detail : String} :
    (∃ error, ofProperties properties = .error (.invalidValue "metadataTimeoutMs" error) ∧
      error.message = detail) ↔
      Complaint (UInt64.size - 1) (trim given.toList) detail := by
  rw [← exists_readUnsigned_eq_error_iff]
  simp only [ofProperties_eq_error_iff, ← readUnsigned_eq_error_iff, h]
  constructor
  · rintro ⟨error, ⟨text, fault, hText, hRead, hError⟩, hDetail⟩
    cases hText
    cases hError
    exact ⟨error, hRead, hDetail⟩
  · rintro ⟨error, hRead, hDetail⟩
    exact ⟨error, ⟨given, error, rfl, hRead, rfl⟩, hDetail⟩

end Timeout

end Settings

/-- A text that stands for a number is read as the whole value of a numeral within the bound, or it
is refused in the words of what is first wrong with it; words of a fixed width come to the same. So
do the port of an entry, whose failure is that of the list and of the address that come to it, and
the timeout among the properties. -/
theorem numbers_read (text : List Char) :
    (∀ bound,
      (∀ n, readUnsigned bound text = .ok n ↔ IsNumeral text n ∧ n ≤ bound) ∧
      ∀ message, (∃ error, readUnsigned bound text = .error error ∧ error.message = message) ↔
        Complaint bound text message) ∧
    (∀ width, 10 < 2 ^ width →
      (readFixed width text).map BitVec.toNat = readUnsigned (2 ^ width - 1) text) ∧
    (∀ entry host, Endpoint.HasPort entry host text →
      (∀ e, Endpoint.ofEntry entry = .ok e ↔
        e.host = String.ofList host ∧ IsNumeral text e.port.toNat) ∧
      (∀ message, (∃ reason, Endpoint.ofEntry entry = .error reason ∧
        reason.message = "invalid port '" ++ String.ofList text ++ "': " ++ message) ↔
          Complaint (UInt16.size - 1) text message) ∧
      ∀ reason list, Endpoint.ofEntry entry = .error reason → Endpoint.Reaches list entry →
        Endpoint.parseList (String.ofList list) =
          .error ⟨String.ofList list, .malformedBroker (String.ofList (trim entry)) reason⟩ ∧
        ∀ address, Address.HasList address.toList list →
          Address.parse address =
            .error ⟨address, .malformedBroker (String.ofList (trim entry)) reason⟩) ∧
    ∀ properties : Table String String, ∀ given,
      properties.get? "metadataTimeoutMs" = some given → trim given.toList = text →
      (∀ timeout : UInt64,
        (∃ settings, Settings.ofProperties properties = .ok settings ∧
          settings.metadataTimeoutMs = timeout) ↔ IsNumeral text timeout.toNat) ∧
      ∀ detail, (∃ error, Settings.ofProperties properties =
        .error (.invalidValue "metadataTimeoutMs" error) ∧ error.message = detail) ↔
          Complaint (UInt64.size - 1) text detail := by
  refine ⟨fun bound => ⟨fun n => readUnsigned_eq_ok_iff, fun _ => exists_readUnsigned_eq_error_iff⟩,
    fun width wide => map_toNat_readFixed wide text, ?_, ?_⟩
  · intro entry host hPort
    refine ⟨fun _ => hPort.ofEntry_eq_ok_iff, fun _ => hPort.exists_ofEntry_eq_error_iff, ?_⟩
    intro reason list hEntry hReaches
    have hList := hReaches.readList_eq_error hPort.not_isBlankText hEntry
    refine ⟨?_, fun address hAddress => hAddress.parse_eq_error hList⟩
    rw [Endpoint.parseList, String.toList_ofList, hList]
    rfl
  · rintro properties given hGiven rfl
    exact ⟨fun _ => Settings.exists_ofProperties_eq_ok_iff hGiven,
      fun _ => Settings.exists_ofProperties_eq_invalidValue_iff hGiven⟩

/-- A port that is too large before its last character is looked at, behind one that just fits. With
room for more, as a timeout, the same text is refused for that character. -/
theorem numbers_read_crowded :
    let text := "70000x".toList
    let entry := " h : 70000x ".toList
    let list := "b1:+00065535, h : 70000x ,:".toList
    let address := "kafka://b1:+00065535, h : 70000x ,:/t"
    let properties := Table.ofList [("metadataTimeoutMs", "\t70000x")]
    10 < 2 ^ 16 ∧ Endpoint.HasPort entry ['h'] text ∧ Endpoint.Reaches list entry ∧
      Address.HasList address.toList list ∧
      properties.get? "metadataTimeoutMs" = some "\t70000x" ∧ trim "\t70000x".toList = text ∧
      (readFixed 16 text).map BitVec.toNat = .error .tooLarge ∧
      (∃ reason : EntryFault,
        reason.message = "invalid port '70000x': number too large to fit in target type" ∧
          Address.parse address = .error ⟨address, .malformedBroker "h : 70000x" reason⟩) ∧
      ∃ error : NumeralError, error.message = "invalid digit found in string" ∧
        Settings.ofProperties properties = .error (.invalidValue "metadataTimeoutMs" error) := by
  intro text entry list address properties
  obtain ⟨hRead, hWord, hPort, hTimeout⟩ := numbers_read text
  have wide : 10 < 2 ^ 16 := by decide
  have hHas : Endpoint.HasPort entry ['h'] text := by
    have hParts : trim entry = "h ".toList ++ ':' :: " 70000x".toList := by decide
    exact .mk hParts (by decide) (Endpoint.isHost_iff_isHostText.mp (by decide))
  have hReaches : Endpoint.Reaches list entry := by
    have hParts : list = join [','] (["b1:+00065535".toList] ++ entry :: [":".toList]) := by decide
    refine .mk hParts (by decide) ?_
    intro part hPart
    obtain rfl := List.mem_singleton.mp hPart
    exact ⟨⟨"b1", 65535⟩, Endpoint.ofEntry_eq_ok_iff.mp (by decide +kernel)⟩
  have hList : Address.HasList address.toList list := by
    have hParts : trim address.toList = Address.scheme false ++ (list ++ '/' :: ['t']) := by decide
    exact .mk hParts (by decide) (by decide)
  have hGiven : properties.get? "metadataTimeoutMs" = some "\t70000x" := by decide +kernel
  have hTrim : trim "\t70000x".toList = text := by decide
  obtain ⟨_, hReason, hFails⟩ := hPort entry ['h'] hHas
  obtain ⟨reason, hEntry, hMessage⟩ :=
    (hReason _).mpr (((hRead _).2 _).mp ⟨.tooLarge, by decide, rfl⟩)
  obtain ⟨_, hTimeoutRefused⟩ := hTimeout properties _ hGiven hTrim
  obtain ⟨error, hRefused, hDetail⟩ :=
    (hTimeoutRefused _).mpr (((hRead _).2 _).mp ⟨.invalidDigit, by decide, rfl⟩)
  refine ⟨wide, hHas, hReaches, hList, hGiven, hTrim, ?_, ⟨reason, hMessage, ?_⟩, error, hDetail,
    hRefused⟩
  · rw [hWord 16 wide]
    decide
  · exact (hFails reason list hEntry hReaches).2 address hList

end StreamAdmission
