import StreamAdmission.Json.Document
import StreamAdmission.Json.Reader
import StreamAdmission.Table

/-!
# Stream definitions

A request to move data from a source to a destination, with free metadata, and its JSON form. Unset
members are left out when a definition is written; when one is read they may be left out or null,
members may come in any order, and unknown ones are passed over.
-/

namespace StreamAdmission

/-- Where a stream reads from; the partition count may be declared. -/
structure Source where
  connectionString : String
  partitions : Option UInt32
  deriving DecidableEq, Repr

/-- Where a stream writes to, and how its keys and values are encoded. -/
structure Destination where
  connectionString : String
  keySerde : Option String
  valueSerde : Option String
  deriving DecidableEq, Repr

structure Definition where
  name : String
  source : Source
  destination : Option Destination
  metadata : Table String String
  deriving DecidableEq

namespace Source

protected def empty : Source := ⟨"", none⟩

def readPartitions : Json.Reader UInt32 := fun text =>
  match Json.readInteger "u32" 0 0xffffffff text with
  | .error failure => .error failure
  | .ok (count, rest) => .ok (UInt32.ofNat count.toNat, rest)

def record : Json.Record Source where
  name := "SourceSpec"
  members := [
    ⟨"connectionString", true, fun s text =>
      (Json.readString text).map fun (value, rest) => ({ s with connectionString := value }, rest)⟩,
    ⟨"partitions", false, fun s text =>
      (Json.readOptional readPartitions text).map fun (value, rest) =>
        ({ s with partitions := value }, rest)⟩]

def document (s : Source) : Json.Document :=
  .object (("connectionString", .text s.connectionString) ::
    (s.partitions.map fun n => ("partitions", .number n.toNat)).toList)

end Source

namespace Destination

protected def empty : Destination := ⟨"", none, none⟩

def record : Json.Record Destination where
  name := "DestinationSpec"
  members := [
    ⟨"connectionString", false, fun d text =>
      (Json.readString text).map fun (value, rest) => ({ d with connectionString := value }, rest)⟩,
    ⟨"keySerde", false, fun d text =>
      (Json.readOptional Json.readString text).map fun (value, rest) =>
        ({ d with keySerde := value }, rest)⟩,
    ⟨"valueSerde", false, fun d text =>
      (Json.readOptional Json.readString text).map fun (value, rest) =>
        ({ d with valueSerde := value }, rest)⟩]

def document (d : Destination) : Json.Document :=
  .object (("connectionString", .text d.connectionString) ::
    (d.keySerde.map fun serde => ("keySerde", .text serde)).toList ++
    (d.valueSerde.map fun serde => ("valueSerde", .text serde)).toList)

end Destination

namespace Definition

protected def empty : Definition := ⟨"", .empty, none, ∅⟩

instance : Inhabited Definition := ⟨.empty⟩

/-- A definition with nothing but a name and a source. -/
def ofSource (name connectionString : String) : Definition :=
  ⟨name, ⟨connectionString, none⟩, none, ∅⟩

def withPartitions (d : Definition) (count : UInt32) : Definition :=
  { d with source := { d.source with partitions := some count } }

def withDestination (d : Definition) (destination : Destination) : Definition :=
  { d with destination := some destination }

def withMetadata (d : Definition) (key value : String) : Definition :=
  { d with metadata := d.metadata.insert key value }

/-- The metadata key that holds the start positions. -/
def startPositionKey : String := "start-position"

def startPosition? (d : Definition) : Option String := d.metadata.get? startPositionKey

/-- Reads metadata; of two values for one key the later stays. -/
def readMetadata : Json.Reader (Table String String) := fun text =>
  (Json.readMap Json.readStringRest Json.readString text).map fun (entries, rest) =>
    (Table.ofList entries, rest)

def record : Json.Record Definition where
  name := "StreamDefinition"
  members := [
    ⟨"name", true, fun d text =>
      (Json.readString text).map fun (value, rest) => ({ d with name := value }, rest)⟩,
    ⟨"source", true, fun d text =>
      (Source.record.read .empty text).map fun (value, rest) => ({ d with source := value }, rest)⟩,
    ⟨"destination", false, fun d text =>
      (Json.readOptional (Destination.record.read .empty) text).map fun (value, rest) =>
        ({ d with destination := value }, rest)⟩,
    ⟨"metadata", false, fun d text =>
      (readMetadata text).map fun (value, rest) => ({ d with metadata := value }, rest)⟩]

def decode (text : String) : Except Json.Error Definition :=
  Json.decode (record.read .empty) text

/-- The JSON form, the metadata entries written in a given order. -/
def documentWith (d : Definition) (metadata : List (String × String)) : Json.Document :=
  .object (("name", .text d.name) :: ("source", d.source.document) ::
    (d.destination.map fun destination => ("destination", destination.document)).toList ++
    [("metadata", .object (metadata.map fun (key, value) => (key, .text value)))])

/-- The JSON form, the metadata keys in ascending order. -/
def document (d : Definition) : Json.Document := d.documentWith d.metadata.entries

end Definition

end StreamAdmission
