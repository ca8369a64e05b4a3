import StreamAdmission.Broker.Entry

/-!
# Source addresses

An address `kafka://host:port,host:port/topic` (or `kafkassl://` for an encrypted connection) is
read into its brokers in order, its topic and its scheme. The canonical text of an address does not
depend on the order or the spacing it was written with, and reads back as the same address.
-/

namespace StreamAdmission

/-- A source address; the brokers are in order. -/
@[ext]
structure Address where
  brokers : List Endpoint
  topic : String
  secure : Bool
  ordered : Endpoint.Sorted brokers
  deriving DecidableEq, Repr

namespace Address

/-- The address with some brokers, in whatever order these are given. -/
def ofEndpoints (endpoints : List Endpoint) (topic : String) (secure : Bool) : Address :=
  ⟨Endpoint.sort endpoints, topic, secure, Endpoint.sort_sorted endpoints⟩

def plainScheme : List Char := "kafka://".toList

def secureScheme : List Char := "kafkassl://".toList

def scheme (secure : Bool) : List Char := if secure then secureScheme else plainScheme

/-- Whether the scheme is the encrypted one, and the text after it. -/
def stripScheme? (text : List Char) : Option (Bool × List Char) :=
  match secureScheme.isPrefixOf? text with
  | some rest => some (true, rest)
  | none => (plainScheme.isPrefixOf? text).map (false, ·)

/-- Reads an address; the last `/` separates the brokers from the topic. -/
def ofChars (text : List Char) : Except AddressFault Address :=
  match stripScheme? (Text.trim text) with
  | none => .error .missingScheme
  | some (secure, rest) =>
    match Text.splitLast? '/' rest with
    | none => .error .missingTopic
    | some (brokers, topic) =>
      if Text.trim topic = [] then .error .missingTopic
      else
        match Endpoint.readEntries brokers with
        | .error fault => .error fault
        | .ok endpoints => .ok (ofEndpoints endpoints (String.ofList (Text.trim topic)) secure)

/-- Reads an address. A failure names the text as it was given. -/
def parse (text : String) : Except AddressError Address :=
  (ofChars text.toList).mapError (⟨text, ·⟩)

def bootstrapChars (a : Address) : List Char := Text.join [','] (a.brokers.map Endpoint.chars)

/-- The broker list as clients take it. -/
def bootstrapServers (a : Address) : String := String.ofList a.bootstrapChars

/-- The one text of an address. -/
def canonical (a : Address) : String :=
  String.ofList (scheme a.secure ++ a.bootstrapChars ++ '/' :: a.topic.toList)

end Address

end StreamAdmission
