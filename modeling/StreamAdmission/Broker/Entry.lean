import StreamAdmission.Broker.Endpoint
import StreamAdmission.Text.Blank
import StreamAdmission.Text.Split

/-!
# Written broker lists

A list of endpoints is written `host:port,host:port` and read entry by entry, the leftmost malformed
entry deciding the failure.
-/

namespace StreamAdmission

/-- Why an entry of a broker list is not an endpoint. -/
inductive EntryFault where
  | empty
  | noPort
  | badHost
  | badPort (port : String) (error : Text.NumeralError)
  deriving DecidableEq, Repr

def EntryFault.message : EntryFault → String
  | .empty => "empty broker entry"
  | .noPort => "expected host:port"
  | .badHost => "invalid host name"
  | .badPort port error => "invalid port '" ++ port ++ "': " ++ error.message

/-- Why a text is not an address, or a part of it not a broker list. -/
inductive AddressFault where
  | missingScheme
  | missingTopic
  | emptyBrokerList
  | malformedBroker (broker : String) (reason : EntryFault)
  deriving DecidableEq, Repr

def AddressFault.message : AddressFault → String
  | .missingScheme => "missing or unsupported scheme (expected kafka:// or kafkassl://)"
  | .missingTopic => "missing '/<topic>' section"
  | .emptyBrokerList => "broker list is empty"
  | .malformedBroker broker reason => "malformed broker '" ++ broker ++ "': " ++ reason.message

/-- A failure to read an address, with the whole text as it was given. -/
structure AddressError where
  address : String
  fault : AddressFault
  deriving DecidableEq, Repr

def AddressError.message (error : AddressError) : String := error.fault.message

namespace Endpoint

def isNameChar (c : Char) : Bool := c.isAlphanum || c = '.' || c = '_' || c = '-'

/-- A character of a numeric host between brackets. -/
def isNumericChar (c : Char) : Bool :=
  c.isDigit || ('A' ≤ c && c ≤ 'F') || ('a' ≤ c && c ≤ 'f') || c = ':' || c = '.'

/-- What stands between `[` and a final `]`. -/
def bracketed? : List Char → Option (List Char)
  | '[' :: rest => if rest.getLast? = some ']' then some rest.dropLast else none
  | _ => none

/-- A host is a non-empty name, or a non-empty numeric address in brackets. -/
def isHost (host : List Char) : Bool :=
  (host ≠ [] && host.all isNameChar) ||
    match bracketed? host with
    | some inner => inner ≠ [] && inner.all isNumericChar
    | none => false

def ofEntry (entry : List Char) : Except EntryFault Endpoint :=
  if Text.trim entry = [] then .error .empty
  else
    match Text.splitLast? ':' (Text.trim entry) with
    | none => .error .noPort
    | some (host, port) =>
      if isHost (Text.trim host) then
        match Text.readUnsigned 65535 (Text.trim port) with
        | .ok number => .ok ⟨String.ofList (Text.trim host), UInt16.ofNat number⟩
        | .error error => .error (.badPort (String.ofList (Text.trim port)) error)
      else .error .badHost

/-- Reads the entries from left to right; the first that is no endpoint is named in the fault. -/
def ofEntries : List (List Char) → Except AddressFault (List Endpoint)
  | [] => .ok []
  | entry :: rest =>
    match ofEntry entry with
    | .error reason => .error (.malformedBroker (String.ofList (Text.trim entry)) reason)
    | .ok endpoint =>
      match ofEntries rest with
      | .error fault => .error fault
      | .ok endpoints => .ok (endpoint :: endpoints)

/-- Reads a broker list in the order in which it is written. -/
def readEntries (text : List Char) : Except AddressFault (List Endpoint) :=
  if Text.trim text = [] then .error .emptyBrokerList
  else ofEntries (Text.splitAll ',' text)

/-- Reads the broker list of an address, in order. -/
def readList (text : List Char) : Except AddressFault (List Endpoint) :=
  (readEntries text).map sort

/-- Reads a bare broker list such as `b1:9092,b2:9092`, in order. -/
def parseList (text : String) : Except AddressError (List Endpoint) :=
  (readList text.toList).mapError (⟨text, ·⟩)

end Endpoint

end StreamAdmission
