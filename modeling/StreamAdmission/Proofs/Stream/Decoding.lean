import StreamAdmission.Proofs.Json.Integer
import StreamAdmission.Proofs.Json.Object
import StreamAdmission.Proofs.Table
import StreamAdmission.Stream.StartPositions

/-!
# Start positions as they are written

Start positions are written as one object, its keys 64-bit integers between quotes and its values
natural numbers of 64 bits, each without a leading zero. Exactly these texts are decoded, and of two
offsets for one partition the later counts.
-/

namespace StreamAdmission.StartPositions

open Json

/-- The text between the quotes of a partition: an integer and nothing else. -/
def IsPartition (text : List Char) (partition : Int) : Prop :=
  IsInteger text partition ∧ minInteger ≤ partition ∧ partition ≤ maxInteger

def IsOffset (text : List Char) (offset : UInt64) : Prop := IsNatural text offset.toNat

/-- One object with these members, in this order, and white space around it. -/
def IsWritten (text : List Char) (members : List (Int × UInt64)) : Prop :=
  ∃ before inside after, IsSpacing before ∧ InsideText IsPartition IsOffset inside members ∧
    IsSpacing after ∧ text = before ++ '\x7b' :: (inside ++ '\x7d' :: after)

theorem readOffset_eq_ok_iff {text rest : List Char} {offset : UInt64} :
    readOffset text = .ok (offset, rest) ↔
      ∃ space digits, IsSpacing space ∧ text = space ++ (digits ++ rest) ∧
        IsOffset digits offset ∧ EndsNumber rest := by
  have hRead := @readInteger_eq_ok_iff "u64" 0 maxNatural
  constructor
  · intro h
    rw [readOffset] at h
    split at h
    · cases h
    · rename_i z _ hInteger
      obtain ⟨rfl, rfl⟩ := Prod.mk.inj (Except.ok.inj h)
      obtain ⟨space, digits, hSpace, hText, hDigits, hLow, hHigh, hEnds⟩ :=
        (hRead (by decide) (Int.le_refl _)).mp hInteger
      refine ⟨space, digits, hSpace, hText, ?_, hEnds⟩
      cases hDigits with
      | @natural _ n hNatural =>
        have hSmall : n < 2 ^ 64 := Nat.lt_succ_of_le (Int.ofNat_le.mp hHigh)
        rwa [IsOffset, Int.toNat_natCast, UInt64.toNat_ofNat_of_lt' hSmall]
      | negative _ hne => omega
  · rintro ⟨space, digits, hSpace, hText, hOffset, hEnds⟩
    have hHigh : offset.toNat ≤ maxNatural := Nat.le_of_lt_succ offset.toNat_lt
    have hInteger := (hRead (by decide) (Int.le_refl _)).mpr
      ⟨space, digits, hSpace, hText, .natural hOffset, Int.natCast_nonneg _,
        Int.ofNat_le.mpr hHigh, hEnds⟩
    simp only [readOffset, hInteger, Int.toNat_natCast, UInt64.ofNat_toNat]

theorem decode_eq_ok_iff_isWritten (text : String) (s : StartPositions) :
    decode text = .ok s ↔ ∃ members, IsWritten text.toList members ∧ s = ofList members := by
  have hMap : ∀ members, Json.decode (readMap readIntegerKey readOffset) text = .ok members ↔
      IsWritten text.toList members := by
    intro members
    simp only [Json.decode_eq_ok_iff, readMap_eq_ok_iff readIntegerKey_eq_ok_iff
      readOffset_eq_ok_iff]
    constructor
    · rintro ⟨after, ⟨before, inside, hBefore, hInside, hText⟩, hAfter⟩
      exact ⟨before, inside, after, hBefore, hInside, hAfter, hText⟩
    · rintro ⟨before, inside, after, hBefore, hInside, hAfter, hText⟩
      exact ⟨after, ⟨before, inside, hBefore, hInside, hText⟩, hAfter⟩
  rw [decode]
  cases hRead : Json.decode (readMap readIntegerKey readOffset) text with
  | error e =>
    refine iff_of_false nofun ?_
    rintro ⟨members, hWritten, _⟩
    rw [(hMap members).mpr hWritten] at hRead
    cases hRead
  | ok members =>
    constructor
    · intro h
      exact ⟨members, (hMap members).mp hRead, (Except.ok.inj h).symm⟩
    · rintro ⟨others, hWritten, rfl⟩
      rw [Except.ok.inj (hRead.symm.trans ((hMap others).mpr hWritten))]
      rfl

/-- Decoding accepts exactly the written start positions and collects their members in the order of
the text: every other text is refused, and the last value given for a partition counts. -/
theorem decode_accepts_written (text : String) :
    (∀ s, decode text = .ok s ↔ ∃ members, IsWritten text.toList members ∧ s = ofList members) ∧
    ((∃ e, decode text = .error e) ↔ ¬ ∃ members, IsWritten text.toList members) ∧
    ∀ members partition, (ofList members).offsets.get? partition =
      ((members.filter fun member => member.1 = partition).getLast?).map Prod.snd := by
  have hDecode := decode_eq_ok_iff_isWritten text
  refine ⟨hDecode, ⟨?_, ?_⟩, Table.get?_ofList⟩
  · rintro ⟨e, hError⟩ ⟨members, hWritten⟩
    rw [(hDecode _).mpr ⟨members, hWritten, rfl⟩] at hError
    cases hError
  · intro hNone
    cases hResult : decode text with
    | error e => exact ⟨e, rfl⟩
    | ok s =>
      obtain ⟨members, hWritten, _⟩ := (hDecode s).mp hResult
      exact absurd ⟨members, hWritten⟩ hNone

example : decode " \x7b \"7\" : 1 , \"-1\":5,\"7\":2\x7d" = .ok (ofList [(-1, 5), (7, 2)]) := by rfl

end StreamAdmission.StartPositions
