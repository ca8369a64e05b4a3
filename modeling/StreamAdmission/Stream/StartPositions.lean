import StreamAdmission.Json.Reader
import StreamAdmission.Table

/-!
# Start positions

The offsets from which the partitions of a topic are to be read, written as a JSON object from
partition numbers to offsets. A topic with `n` partitions is covered if the partitions `0` to
`n - 1` have an offset and no others do.
-/

namespace StreamAdmission

/-- Offsets by partition; a partition may be any 64-bit integer as it is written. -/
structure StartPositions where
  offsets : Table Int UInt64
  deriving DecidableEq

/-- How start positions fail to cover a topic. -/
structure Gaps where
  missing : List Nat
  unexpected : List Int
  deriving DecidableEq, Repr

namespace Gaps

def isEmpty (g : Gaps) : Bool := g.missing.isEmpty && g.unexpected.isEmpty

end Gaps

namespace StartPositions

/-- Enters the pairs from left to right; the later of two offsets for a partition stays. -/
def ofList (pairs : List (Int × UInt64)) : StartPositions := ⟨Table.ofList pairs⟩

def readOffset : Json.Reader UInt64 := fun text =>
  match Json.readInteger "u64" 0 Json.maxNatural text with
  | .error failure => .error failure
  | .ok (offset, rest) => .ok (UInt64.ofNat offset.toNat, rest)

def decode (text : String) : Except Json.Error StartPositions :=
  (Json.decode (Json.readMap Json.readIntegerKey readOffset) text).map ofList

def offset? (s : StartPositions) (partition : UInt32) : Option UInt64 :=
  s.offsets.get? partition.toNat

def size (s : StartPositions) : Nat := s.offsets.size

def isEmpty (s : StartPositions) : Bool := s.offsets.entries.isEmpty

/-- The partitions with an offset, in ascending order. -/
def partitions (s : StartPositions) : List Int := s.offsets.keys

/-- The partitions below `count` without an offset, and those with one that are not below it. -/
def coverage (s : StartPositions) (count : UInt32) : Gaps where
  missing := (List.range count.toNat).filter fun p => !s.offsets.contains p
  unexpected := s.partitions.filter fun p => p < 0 || count.toNat ≤ p

end StartPositions

end StreamAdmission
