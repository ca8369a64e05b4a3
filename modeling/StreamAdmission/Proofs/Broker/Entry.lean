import StreamAdmission.Broker.Entry
import StreamAdmission.Proofs.Broker.Order
import StreamAdmission.Proofs.Outcome
import StreamAdmission.Proofs.Text.Numeral
import StreamAdmission.Proofs.Text.Split
import StreamAdmission.Proofs.Text.Trim

/-!
# Written endpoints

An endpoint with a proper host is written in characters that are neither blank nor a separator of
addresses, so its text is read back as the same endpoint, alone and in a list.
-/

namespace StreamAdmission

open Text

namespace AddressError

/-- A failure names the text as it was given. -/
theorem mapError_eq_error_iff {α : Type} {r : Except AddressFault α} {text : String}
    {error : AddressError} :
    r.mapError (⟨text, ·⟩) = .error error ↔ error.address = text ∧ r = .error error.fault := by
  rw [StreamAdmission.mapError_eq_error_iff]
  constructor
  · rintro ⟨fault, h, rfl⟩
    exact ⟨rfl, h⟩
  · rintro ⟨rfl, h⟩
    exact ⟨error.fault, h, rfl⟩

end AddressError

namespace Endpoint

/-- A visible ASCII character that separates nothing in an address. -/
def IsPlain (c : Char) : Prop := ('!' ≤ c ∧ c ≤ '~') ∧ c ≠ ',' ∧ c ≠ '/'

theorem IsPlain.isBlank_eq_false {c : Char} (h : IsPlain c) : isBlank c = false := by
  obtain ⟨hc, _, _⟩ := h
  simp only [Char.le_def, UInt32.le_iff_toNat_le] at hc
  simp [isBlank, Char.le_def, UInt32.le_iff_toNat_le, Char.ext_iff, ← UInt32.toNat_inj] at hc ⊢
  omega

theorem isPlain_of_isNameChar {c : Char} (h : isNameChar c = true) : IsPlain c := by
  simp [isNameChar, IsPlain, isAlphanum_iff, Char.le_def, UInt32.le_iff_toNat_le, Char.ext_iff,
    ← UInt32.toNat_inj] at h ⊢
  omega

theorem isPlain_of_isNumericChar {c : Char} (h : isNumericChar c = true) : IsPlain c := by
  simp [isNumericChar, IsPlain, isDigit_iff, Char.le_def, UInt32.le_iff_toNat_le, Char.ext_iff,
    ← UInt32.toNat_inj] at h ⊢
  omega

theorem isPlain_of_digit {c : Char} (h : '0' ≤ c ∧ c ≤ '9') : IsPlain c := by
  simp [IsPlain, Char.le_def, UInt32.le_iff_toNat_le, Char.ext_iff, ← UInt32.toNat_inj] at h ⊢
  omega

theorem bracketed?_eq_some_iff {host inner : List Char} :
    bracketed? host = some inner ↔ host = '[' :: (inner ++ [']']) := by
  constructor
  · intro h
    unfold bracketed? at h
    split at h
    · rename_i rest
      split at h
      · rename_i hlast
        obtain ⟨front, rfl⟩ := List.getLast?_eq_some_iff.mp hlast
        obtain rfl : front = inner := by simpa using h
        rfl
      · cases h
    · cases h
  · rintro rfl
    simp [bracketed?]

theorem isHost_iff {host : List Char} :
    isHost host = true ↔
      (host ≠ [] ∧ ∀ c ∈ host, isNameChar c = true) ∨
        ∃ inner, host = '[' :: (inner ++ [']']) ∧ inner ≠ [] ∧
          ∀ c ∈ inner, isNumericChar c = true := by
  simp only [← bracketed?_eq_some_iff, isHost, Bool.or_eq_true, Bool.and_eq_true,
    decide_eq_true_eq, List.all_eq_true]
  cases bracketed? host <;> simp

theorem isPlain_of_mem_host {host : List Char} (h : isHost host = true) :
    ∀ c ∈ host, IsPlain c := by
  intro c hc
  rcases isHost_iff.mp h with ⟨_, hname⟩ | ⟨inner, rfl, _, hnumeric⟩
  · exact isPlain_of_isNameChar (hname c hc)
  · rcases List.mem_cons.mp hc with rfl | hc
    · exact ⟨by decide, by decide⟩
    rcases List.mem_append.mp hc with hc | hc
    · exact isPlain_of_isNumericChar (hnumeric c hc)
    · rw [List.mem_singleton.mp hc]
      exact ⟨by decide, by decide⟩

/-- The host of the endpoint can be written in an address. -/
def Valid (e : Endpoint) : Prop := isHost e.host.toList = true

theorem Valid.isPlain_of_mem_chars {e : Endpoint} (h : e.Valid) : ∀ c ∈ e.chars, IsPlain c := by
  intro c hc
  rcases List.mem_append.mp hc with hc | hc
  · exact isPlain_of_mem_host h c hc
  rcases List.mem_cons.mp hc with rfl | hc
  · exact ⟨by decide, by decide⟩
  · exact isPlain_of_digit (mem_decimal hc)

theorem Valid.comma_not_mem {e : Endpoint} (h : e.Valid) : ',' ∉ e.chars :=
  fun hComma => (h.isPlain_of_mem_chars ',' hComma).2.1 rfl

/-- Every endpoint has a colon in its text, which is no blank. -/
theorem not_isBlankText_join (sep : List Char) {endpoints : List Endpoint} (hne : endpoints ≠ []) :
    ¬ IsBlankText (join sep (endpoints.map chars)) := by
  intro hBlank
  obtain ⟨e, he⟩ := List.exists_mem_of_ne_nil _ hne
  have hColon : ':' ∈ e.chars := List.mem_append_right _ List.mem_cons_self
  exact absurd (hBlank ':' (mem_join_of_mem _ (List.mem_map_of_mem he) hColon)) (by decide)

theorem chars_ne_nil (e : Endpoint) : e.chars ≠ [] :=
  List.append_ne_nil_of_right_ne_nil _ (List.cons_ne_nil _ _)

theorem isTrimmed_of_isPlain {text : List Char} (h : ∀ c ∈ text, IsPlain c) : IsTrimmed text :=
  isTrimmed_of_forall fun c hc => (h c hc).isBlank_eq_false

/-- Reading the text of an endpoint gives the endpoint. -/
theorem ofEntry_chars {e : Endpoint} (h : e.Valid) : ofEntry e.chars = .ok e := by
  have hText : trim e.chars = e.chars := trim_eq_self (isTrimmed_of_isPlain h.isPlain_of_mem_chars)
  have hHost : trim e.host.toList = e.host.toList :=
    trim_eq_self (isTrimmed_of_isPlain (isPlain_of_mem_host h))
  have hPort : trim (decimal e.port.toNat) = decimal e.port.toNat :=
    trim_eq_self (isTrimmed_of_isPlain fun c hc => isPlain_of_digit (mem_decimal hc))
  have hSplit : splitLast? ':' e.chars = some (e.host.toList, decimal e.port.toNat) := by
    refine splitLast?_eq_some_iff.mpr ⟨rfl, fun hc => ?_⟩
    exact absurd (mem_decimal hc) (by decide)
  have hRead : readUnsigned 65535 (decimal e.port.toNat) = .ok e.port.toNat :=
    readUnsigned_decimal (by have := e.port.toNat_lt; omega)
  rw [ofEntry, hText, if_neg e.chars_ne_nil, hSplit]
  have hProper : isHost e.host.toList = true := h
  simp only [hHost, hPort, hRead, hProper, if_true, String.ofList_toList, UInt16.ofNat_toNat]

theorem valid_of_ofEntry {entry : List Char} {e : Endpoint} (h : ofEntry entry = .ok e) :
    e.Valid := by
  unfold ofEntry at h
  split at h
  · cases h
  split at h
  · cases h
  split at h
  · rename_i hHost
    split at h
    · cases h
      rw [Valid, String.toList_ofList]
      exact hHost
    · cases h
  · cases h

theorem ofEntries_chars {endpoints : List Endpoint} (h : ∀ e ∈ endpoints, e.Valid) :
    ofEntries (endpoints.map chars) = .ok endpoints := by
  induction endpoints with
  | nil => rfl
  | cons e rest ih =>
    rw [List.map_cons, ofEntries, ofEntry_chars (h e List.mem_cons_self),
      ih fun x hx => h x (List.mem_cons_of_mem _ hx)]

theorem ofEntries_valid {entries : List (List Char)} {endpoints : List Endpoint}
    (h : ofEntries entries = .ok endpoints) :
    endpoints.length = entries.length ∧ ∀ e ∈ endpoints, e.Valid := by
  induction entries generalizing endpoints with
  | nil =>
    cases h
    exact ⟨rfl, fun e he => absurd he List.not_mem_nil⟩
  | cons entry rest ih =>
    rw [ofEntries] at h
    split at h
    · cases h
    · rename_i e hEntry
      split at h
      · cases h
      · rename_i others hRest
        cases h
        obtain ⟨hLength, hValid⟩ := ih hRest
        refine ⟨congrArg Nat.succ hLength, fun x hx => ?_⟩
        rcases List.mem_cons.mp hx with rfl | hx
        · exact valid_of_ofEntry hEntry
        · exact hValid x hx

/-- A broker list as it can be written: not empty, and with proper hosts. -/
structure BrokerList (endpoints : List Endpoint) : Prop where
  ne_nil : endpoints ≠ []
  valid : ∀ e ∈ endpoints, e.Valid

theorem brokerList_of_readEntries {text : List Char} {endpoints : List Endpoint}
    (h : readEntries text = .ok endpoints) : BrokerList endpoints := by
  unfold readEntries at h
  split at h
  · cases h
  · obtain ⟨hLength, hValid⟩ := ofEntries_valid h
    refine ⟨?_, hValid⟩
    rintro rfl
    exact splitAll_ne_nil ',' text (List.length_eq_zero_iff.mp hLength.symm)

theorem BrokerList.sort {endpoints : List Endpoint} (h : BrokerList endpoints) :
    BrokerList (sort endpoints) := by
  have hPerm := sort_perm endpoints
  constructor
  · intro hNil
    rw [hNil] at hPerm
    exact h.ne_nil hPerm.nil_eq.symm
  · exact fun e he => h.valid e (hPerm.mem_iff.mp he)

theorem parseList_eq_ok_iff {text : String} {brokers : List Endpoint} :
    parseList text = .ok brokers ↔ readList text.toList = .ok brokers := by
  rw [parseList, mapError_eq_ok_iff]

theorem readEntries_join {endpoints : List Endpoint} (h : BrokerList endpoints) :
    readEntries (join [','] (endpoints.map chars)) = .ok endpoints := by
  have hSplit : splitAll ',' (join [','] (endpoints.map chars)) = endpoints.map chars := by
    apply splitAll_join (mt List.map_eq_nil_iff.mp h.ne_nil)
    rw [List.forall_mem_map]
    exact fun e he => (h.valid e he).comma_not_mem
  have hText := mt trim_eq_nil_iff.mp (not_isBlankText_join [','] h.ne_nil)
  rw [readEntries, if_neg hText, hSplit, ofEntries_chars h.valid]

theorem readList_join {endpoints : List Endpoint} (h : BrokerList endpoints)
    (sorted : Sorted endpoints) : readList (join [','] (endpoints.map chars)) = .ok endpoints := by
  rw [readList, readEntries_join h]
  exact congrArg Except.ok (sort_eq_self sorted)

end Endpoint

end StreamAdmission
