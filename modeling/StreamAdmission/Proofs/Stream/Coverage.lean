import Mathlib.Data.Finset.Card
import Mathlib.Data.List.Sort
import StreamAdmission.Stream.StartPositions

/-!
# Covered topics

Start positions cover a topic if their partitions are exactly those of the topic. Their gaps are the
two one-sided differences in ascending order; they are determined by this and empty exactly if
the topic is covered. The sizes of the differences balance, so at most one topic size is covered.
-/

namespace StreamAdmission.StartPositions

/-- The partitions with an offset are those from `0` to `count - 1`. -/
def Covers (s : StartPositions) (count : UInt32) : Prop :=
  ∀ p : Int, p ∈ s.partitions ↔ 0 ≤ p ∧ p < count.toNat

/-- The gaps as the two differences between the partitions and the range below `count`. -/
structure GapsOf (s : StartPositions) (count : UInt32) (gaps : Gaps) : Prop where
  missing_ascending : gaps.missing.Pairwise (· < ·)
  mem_missing : ∀ p : Nat, p ∈ gaps.missing ↔ p < count.toNat ∧ (p : Int) ∉ s.partitions
  unexpected_ascending : gaps.unexpected.Pairwise (· < ·)
  mem_unexpected : ∀ p : Int,
    p ∈ gaps.unexpected ↔ p ∈ s.partitions ∧ ¬ (0 ≤ p ∧ p < count.toNat)

theorem partitions_ascending (s : StartPositions) : s.partitions.Pairwise (· < ·) := by
  apply s.offsets.pairwise_keys.imp
  intro a b h
  exact Std.compare_eq_lt.mp h

theorem gapsOf_coverage (s : StartPositions) (count : UInt32) :
    GapsOf s count (s.coverage count) where
  missing_ascending := List.pairwise_lt_range.filter _
  mem_missing := by
    intro p
    rw [coverage, List.mem_filter, List.mem_range, Bool.not_eq_true', ← Bool.not_eq_true,
      Table.contains_iff_mem_keys]
    rfl
  unexpected_ascending := s.partitions_ascending.filter _
  mem_unexpected := by
    intro p
    have hOut : p < 0 ∨ (count.toNat : Int) ≤ p ↔ ¬ (0 ≤ p ∧ p < count.toNat) := by omega
    rw [coverage, List.mem_filter, Bool.or_eq_true, decide_eq_true_eq, decide_eq_true_eq, hOut]

theorem GapsOf.isEmpty_iff {s : StartPositions} {count : UInt32} {gaps : Gaps}
    (h : GapsOf s count gaps) : gaps.isEmpty = true ↔ s.Covers count := by
  rw [Gaps.isEmpty, Bool.and_eq_true, List.isEmpty_iff, List.isEmpty_iff,
    List.eq_nil_iff_forall_not_mem, List.eq_nil_iff_forall_not_mem]
  simp only [h.mem_missing, h.mem_unexpected]
  constructor
  · rintro ⟨hMissing, hUnexpected⟩ p
    refine ⟨fun hp => ?_, fun hp => ?_⟩
    · exact Decidable.byContradiction fun hOut => hUnexpected p ⟨hp, hOut⟩
    · refine Decidable.byContradiction fun hAbsent => hMissing p.toNat ⟨by omega, ?_⟩
      rwa [Int.toNat_of_nonneg hp.1]
  · intro hCovers
    refine ⟨fun p hp => hp.2 ((hCovers p).mpr ⟨by omega, by omega⟩), fun p hp => ?_⟩
    exact hp.2 ((hCovers p).mp hp.1)

theorem GapsOf.unique {s : StartPositions} {count : UInt32} {gaps gaps' : Gaps}
    (h : GapsOf s count gaps) (h' : GapsOf s count gaps') : gaps = gaps' := by
  have hMissing : gaps.missing = gaps'.missing :=
    h.missing_ascending.eq_of_mem_iff h'.missing_ascending
      fun p => (h.mem_missing p).trans (h'.mem_missing p).symm
  have hUnexpected : gaps.unexpected = gaps'.unexpected :=
    h.unexpected_ascending.eq_of_mem_iff h'.unexpected_ascending
      fun p => (h.mem_unexpected p).trans (h'.mem_unexpected p).symm
  cases gaps
  cases gaps'
  cases hMissing
  cases hUnexpected
  rfl

def partitionSet (s : StartPositions) : Finset Int := s.partitions.toFinset

/-- The partitions of a topic of the size, as a set. -/
def topicSet (count : UInt32) : Finset Int := ((List.range count.toNat).map Int.ofNat).toFinset

theorem mem_partitionSet {s : StartPositions} {p : Int} : p ∈ s.partitionSet ↔ p ∈ s.partitions :=
  List.mem_toFinset

theorem mem_topicSet {count : UInt32} {p : Int} :
    p ∈ topicSet count ↔ 0 ≤ p ∧ p < count.toNat := by
  rw [topicSet, List.mem_toFinset, List.mem_map]
  simp only [List.mem_range]
  constructor
  · rintro ⟨q, hq, rfl⟩
    exact ⟨Int.natCast_nonneg q, Int.ofNat_lt.mpr hq⟩
  · rintro ⟨hNonneg, hBelow⟩
    obtain ⟨q, rfl⟩ := Int.eq_ofNat_of_zero_le hNonneg
    exact ⟨q, Int.ofNat_lt.mp hBelow, rfl⟩

theorem card_partitionSet (s : StartPositions) : s.partitionSet.card = s.size := by
  rw [partitionSet, List.toFinset_card_of_nodup s.partitions_ascending.nodup]
  exact List.length_map Prod.fst

theorem card_topicSet (count : UInt32) : (topicSet count).card = count.toNat := by
  have hNodup : ((List.range count.toNat).map Int.ofNat).Nodup :=
    List.nodup_range.map fun _ _ => Int.ofNat.inj
  rw [topicSet, List.toFinset_card_of_nodup hNodup, List.length_map, List.length_range]

section Sizes
variable {s : StartPositions} {count : UInt32}

theorem GapsOf.length_unexpected {gaps : Gaps} (h : GapsOf s count gaps) :
    gaps.unexpected.length = (s.partitionSet \ topicSet count).card := by
  rw [← List.toFinset_card_of_nodup h.unexpected_ascending.nodup]
  apply congrArg Finset.card
  ext p
  rw [List.mem_toFinset, h.mem_unexpected, Finset.mem_sdiff, mem_partitionSet, mem_topicSet]

theorem GapsOf.length_missing {gaps : Gaps} (h : GapsOf s count gaps) :
    gaps.missing.length = (topicSet count \ s.partitionSet).card := by
  have hNodup : (gaps.missing.map Int.ofNat).Nodup :=
    h.missing_ascending.nodup.map fun _ _ => Int.ofNat.inj
  rw [← List.length_map Int.ofNat, ← List.toFinset_card_of_nodup hNodup]
  apply congrArg Finset.card
  ext p
  rw [List.mem_toFinset, List.mem_map, Finset.mem_sdiff, mem_partitionSet, topicSet,
    List.mem_toFinset, List.mem_map]
  simp only [h.mem_missing, List.mem_range]
  constructor
  · rintro ⟨q, ⟨hq, hAbsent⟩, rfl⟩
    exact ⟨⟨q, hq, rfl⟩, hAbsent⟩
  · rintro ⟨⟨q, hq, rfl⟩, hAbsent⟩
    exact ⟨q, ⟨hq, hAbsent⟩, rfl⟩

/-- Both sides count the partitions that are of the topic or have an offset. -/
theorem GapsOf.count_add_unexpected {gaps : Gaps} (h : GapsOf s count gaps) :
    count.toNat + gaps.unexpected.length = s.size + gaps.missing.length := by
  calc count.toNat + gaps.unexpected.length
      = (s.partitionSet \ topicSet count).card + (topicSet count).card := by
        rw [h.length_unexpected, card_topicSet, Nat.add_comm]
    _ = (s.partitionSet ∪ topicSet count).card := Finset.card_sdiff_add_card _ _
    _ = (topicSet count ∪ s.partitionSet).card := by rw [Finset.union_comm]
    _ = (topicSet count \ s.partitionSet).card + s.partitionSet.card :=
        (Finset.card_sdiff_add_card _ _).symm
    _ = s.size + gaps.missing.length := by
        rw [h.length_missing, card_partitionSet, Nat.add_comm]

theorem Covers.size_eq (h : s.Covers count) : s.size = count.toNat := by
  have hGaps := s.gapsOf_coverage count
  have hEmpty := hGaps.isEmpty_iff.mpr h
  rw [Gaps.isEmpty, Bool.and_eq_true, List.isEmpty_iff, List.isEmpty_iff] at hEmpty
  have hCount := hGaps.count_add_unexpected
  rw [hEmpty.1, hEmpty.2] at hCount
  exact hCount.symm

theorem offset?_isSome_iff {p : UInt32} :
    (s.offset? p).isSome = true ↔ (p.toNat : Int) ∈ s.partitions :=
  Table.contains_iff_mem_keys

theorem Covers.offset?_isSome_iff (h : s.Covers count) (p : UInt32) :
    (s.offset? p).isSome = true ↔ p < count := by
  rw [StartPositions.offset?_isSome_iff, h, UInt32.lt_iff_toNat_lt]
  omega

theorem Covers.unique {other : UInt32} (h : s.Covers count) (h' : s.Covers other) :
    count = other := by
  apply UInt32.toNat_inj.mp
  rw [← h.size_eq, h'.size_eq]

end Sizes

/-- The gaps are exactly the two differences, of sizes that balance, and there are none exactly if
the topic is covered. Then there is an offset for each of its partitions and no other, and no topic
of another size is covered. -/
theorem coverage_exact (s : StartPositions) (count : UInt32) :
    GapsOf s count (s.coverage count) ∧
    count.toNat + (s.coverage count).unexpected.length =
      s.size + (s.coverage count).missing.length ∧
    ((s.coverage count).isEmpty = true ↔
      ∀ p : Int, p ∈ s.partitions ↔ 0 ≤ p ∧ p < count.toNat) ∧
    ((s.coverage count).isEmpty = true → s.size = count.toNat ∧
      (∀ p : UInt32, (s.offset? p).isSome = true ↔ p < count) ∧
      ∀ other, (s.coverage other).isEmpty = true → other = count) := by
  have hGaps := s.gapsOf_coverage count
  refine ⟨hGaps, hGaps.count_add_unexpected, hGaps.isEmpty_iff, ?_⟩
  intro hEmpty
  have hCovers := hGaps.isEmpty_iff.mp hEmpty
  refine ⟨hCovers.size_eq, hCovers.offset?_isSome_iff, ?_⟩
  intro other hOther
  exact Covers.unique ((s.gapsOf_coverage other).isEmpty_iff.mp hOther) hCovers

/-- Partitions at both ends of the 64-bit integers and just above the 32-bit ones; and a covered
topic. -/
theorem coverage_exact_far :
    let far := ofList [(4294967296, 7), (-9223372036854775808, 5), (0, 1), (9223372036854775807, 0)]
    let full := ofList [(1, 9), (0, 4)]
    GapsOf far 2 ⟨[1], [-9223372036854775808, 4294967296, 9223372036854775807]⟩ ∧
      2 + 3 = far.size + 1 ∧ full.size = 2 ∧
      (∀ p : UInt32, (full.offset? p).isSome = true ↔ p < 2) ∧
      ∀ other, (full.coverage other).isEmpty = true → other = 2 := by
  intro far full
  have hFar : far.coverage 2 =
      ⟨[1], [-9223372036854775808, 4294967296, 9223372036854775807]⟩ := by decide +kernel
  obtain ⟨hGaps, hSizes, _⟩ := coverage_exact far 2
  rw [hFar] at hGaps hSizes
  obtain ⟨_, _, _, hFull⟩ := coverage_exact full 2
  obtain ⟨hSize, hOffsets, hOther⟩ := hFull (by decide +kernel)
  exact ⟨hGaps, hSizes, hSize, hOffsets, hOther⟩

end StreamAdmission.StartPositions
