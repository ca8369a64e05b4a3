import StreamAdmission.Broker.Whitelist
import StreamAdmission.Table

/-!
# Connector settings

What a connector is configured with: the clusters it may read from, the serdes given to destinations
that lack one, the timeout of metadata requests, and properties passed on to the metadata client.
-/

namespace StreamAdmission

structure Settings where
  whiteListedClusters : Option String
  defaultKeySerde : Option String
  defaultValueSerde : Option String
  metadataTimeoutMs : UInt64
  consumer : Table String String
  deriving DecidableEq

namespace Settings

/-- The settings of a connector for which nothing is configured. -/
protected def standard : Settings := ⟨none, none, none, 30000, ∅⟩

instance : Inhabited Settings := ⟨.standard⟩

def clustersKey : String := "whiteListedClusters"
def keySerdeKey : String := "defaultKeySerde"
def valueSerdeKey : String := "defaultValueSerde"
def timeoutKey : String := "metadataTimeoutMs"
def consumerKey : String := "consumer"

def nonBlank? (value : Option String) : Option String :=
  value.filter fun text => Text.trim text.toList ≠ []

/-- The key serde for destinations that lack one; a blank setting gives none. -/
def effectiveKeySerde (s : Settings) : Option String := nonBlank? s.defaultKeySerde

/-- The value serde for destinations that lack one; a blank setting gives none. -/
def effectiveValueSerde (s : Settings) : Option String := nonBlank? s.defaultValueSerde

end Settings

/-- Why a file cannot be read as text; what is not told apart is given in the words of the system. -/
inductive ReadError where
  | notFound
  | isDirectory
  | notDirectory
  | nameTooLong
  | zeroInName
  | notText
  | other (message : String)
  deriving DecidableEq, Repr

def ReadError.message : ReadError → String
  | .notFound => "No such file or directory (os error 2)"
  | .isDirectory => "Is a directory (os error 21)"
  | .notDirectory => "Not a directory (os error 20)"
  | .nameTooLong => "File name too long (os error 36)"
  | .zeroInName => "file name contained an unexpected NUL byte"
  | .notText => "stream did not contain valid UTF-8"
  | .other message => message

/-- Why settings cannot be loaded. A text that is refused by its decoder is kept. -/
inductive SettingsError where
  | unreadable (path : String) (error : ReadError)
  | invalidToml (text : String)
  | invalidYaml (text : String)
  | unsupportedFormat (path : String)
  | invalidValue (key : String) (error : Text.NumeralError)
  | whitelist (error : AddressError)
  deriving DecidableEq, Repr

/-- The words in which the decoders of the two formats refuse a text. They are the decoders' own. -/
structure DecoderWords where
  toml : String → String
  yaml : String → String

def SettingsError.message (words : DecoderWords) : SettingsError → String
  | .unreadable path error => "Failed to read config file " ++ path ++ ": " ++ error.message
  | .invalidToml text => "Invalid TOML config: " ++ words.toml text
  | .invalidYaml text => "Invalid YAML config: " ++ words.yaml text
  | .unsupportedFormat path =>
    "Unsupported config file format: " ++ path ++ " (expected .toml, .yaml or .yml)"
  | .invalidValue key error => "Invalid value for '" ++ key ++ "': " ++ error.message
  | .whitelist error => "Invalid whiteListedClusters: " ++ error.message

end StreamAdmission
