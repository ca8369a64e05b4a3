import StreamAdmission.Settings.Basic
import StreamAdmission.Toml.Node

/-!
# Settings from TOML

The options stand under their names at the top of the document, and the properties for the client
in the table `consumer`. Names that are no options are passed over.
-/

namespace StreamAdmission.Settings

def tomlText? (name : String) (members : Toml.Members) : Option (Option String) :=
  match Toml.find? name members with
  | none => some none
  | some (.string value) => some (some value)
  | some _ => none

/-- The timeout, a number that is not negative; it may be absent. -/
def tomlTimeout? (members : Toml.Members) : Option UInt64 :=
  match Toml.find? timeoutKey members with
  | none => some Settings.standard.metadataTimeoutMs
  | some (.scalar (.integer value)) =>
    if 0 ≤ value then some (UInt64.ofNat value.toNat) else none
  | some _ => none

/-- The entries of a table whose values are all texts. -/
def tomlTexts? (members : Toml.Members) : Option (Table String String) := do
  let pairs ← members.mapM fun (name, node) =>
    match node with
    | .string value => some (name, value)
    | _ => none
  return Table.ofList pairs

/-- The one name in a date or time that is taken for a table. -/
def tomlTimeName : String := "$__toml_private_datetime"

/-- The properties for the client; they may be absent. -/
def tomlConsumer? (members : Toml.Members) : Option (Table String String) :=
  match Toml.find? consumerKey members with
  | none => some ∅
  | some (.table _ inner) => tomlTexts? inner
  | some (.inlineTable inner) => tomlTexts? inner
  | some (.scalar (.dateTime text)) => some (Table.ofList [(tomlTimeName, text)])
  | some _ => none

def ofTomlMembers? (members : Toml.Members) : Option Settings := do
  return {
    whiteListedClusters := ← tomlText? clustersKey members
    defaultKeySerde := ← tomlText? keySerdeKey members
    defaultValueSerde := ← tomlText? valueSerdeKey members
    metadataTimeoutMs := ← tomlTimeout? members
    consumer := ← tomlConsumer? members }

def ofToml (text : String) : Except SettingsError Settings :=
  match (Toml.parse? text).bind ofTomlMembers? with
  | some settings => .ok settings
  | none => .error (.invalidToml text)

end StreamAdmission.Settings
