import StreamAdmission.Settings.Basic

/-!
# Settings from properties

A flat table of properties. The options stand under their names, and a property `consumer.k` is
passed on to the client as `k`.
-/

namespace StreamAdmission.Settings

/-- What marks a property for the client. -/
def consumerMark : List Char := "consumer.".toList

/-- The client's name for a property, if it is one for the client. -/
def consumerName? (key : String) : Option String :=
  match consumerMark.isPrefixOf? key.toList with
  | some (c :: rest) => some (String.ofList (c :: rest))
  | _ => none

/-- The property under the client's name for it, if it is one for the client. -/
def passedOn? (property : String × String) : Option (String × String) :=
  (consumerName? property.1).map (·, property.2)

/-- The properties for the client, entered in the order in which the properties are visited. -/
def passOn (visited : List (String × String)) : Table String String :=
  Table.ofList (visited.filterMap passedOn?)

/-- The properties for the client under the client's names. -/
def consumerProperties (properties : Table String String) : Table String String :=
  passOn properties.entries

/-- Reads the timeout; blanks around the number do not matter. -/
def timeoutOf (properties : Table String String) : Except SettingsError UInt64 :=
  match properties.get? timeoutKey with
  | none => .ok Settings.standard.metadataTimeoutMs
  | some text =>
    match Text.readUnsigned (UInt64.size - 1) (Text.trim text.toList) with
    | .ok n => .ok (UInt64.ofNat n)
    | .error e => .error (.invalidValue timeoutKey e)

def ofProperties (properties : Table String String) : Except SettingsError Settings :=
  match timeoutOf properties with
  | .error e => .error e
  | .ok timeout =>
    .ok {
      whiteListedClusters := properties.get? clustersKey
      defaultKeySerde := properties.get? keySerdeKey
      defaultValueSerde := properties.get? valueSerdeKey
      metadataTimeoutMs := timeout
      consumer := consumerProperties properties }

end StreamAdmission.Settings
