import StreamAdmission.Settings.Basic
import StreamAdmission.Yaml.Node

/-!
# Settings from YAML

The options stand under their names in the top mapping, and the properties for the client in the
mapping `consumer`. A scalar of any kind is taken as its text where a text is wanted; one that is
written plainly as a null stands for nothing. Names that are no options are passed over.
-/

namespace StreamAdmission.Settings

open Yaml (Tree Document)

def isNullWord (text : List Char) : Bool :=
  text = ['~'] || text = "null".toList || text = "Null".toList || text = "NULL".toList

def nullTag : List Char := "tag:yaml.org,2002:null".toList

def intTag : List Char := "tag:yaml.org,2002:int".toList

def yamlText? (d : Document) (tree : Tree) : Option String := do
  match ← d.follow tree with
  | .scalar _ _ text => some (String.ofList text)
  | _ => none

/-- The text of a scalar, or nothing for a null. -/
def yamlOptional? (d : Document) (tree : Tree) : Option (Option String) := do
  match ← d.follow tree with
  | .scalar none .plain text =>
    if text = [] ∨ isNullWord text then some none else some (some (String.ofList text))
  | .scalar (some tag) .plain text =>
    if tag = nullTag then if isNullWord text then some none else none
    else some (some (String.ofList text))
  | .scalar _ _ text => some (some (String.ofList text))
  | _ => none

/-- The value of digits in a base, all of which belong to the base. -/
def inBase? (base : Nat) (digits : List Char) : Option Nat :=
  let value? := digits.foldlM (fun value d =>
    match Json.hexValue? d with
    | some digit => if digit < base then some (value * base + digit) else none
    | none => none) 0
  match digits, value? with
  | [], _ => none
  | _, some value => if value < UInt64.size then some value else none
  | _, none => none

/-- What stands behind a plus sign, if there is one, and if no other sign follows. -/
def unsignedDigits? (text : List Char) : Option (List Char) :=
  let digits := match text with
    | '+' :: rest => rest
    | text => text
  match digits with
  | '+' :: _ => none
  | '-' :: _ => none
  | _ => some digits

/-- The natural number written by a scalar. In decimal it does not start with a zero unless it is
zero. -/
def naturalOf? (text : List Char) : Option Nat := do
  match ← unsignedDigits? text with
  | '0' :: 'x' :: rest => inBase? 16 rest
  | '0' :: 'o' :: rest => inBase? 8 rest
  | '0' :: 'b' :: rest => inBase? 2 rest
  | '0' :: _ :: _ => none
  | digits => inBase? 10 digits

/-- The timeout: a number that is written plainly, or in a block that is marked as an integer. -/
def yamlTimeout? (d : Document) (tree : Tree) : Option UInt64 := do
  let text ← match ← d.follow tree with
    | .scalar _ .plain text => some text
    | .scalar (some tag) .literal text => if tag = intTag then some text else none
    | _ => none
  return UInt64.ofNat (← naturalOf? text)

/-- The pairs of a mapping; a blank scalar stands for an empty one. -/
def yamlPairs? (d : Document) (tree : Tree) : Option (List (Tree × Tree)) := do
  match ← d.follow tree with
  | .mapping pairs => some pairs
  | .scalar _ .plain [] => some []
  | _ => none

/-- The properties for the client; of two values for one name the later stays. -/
def yamlConsumer? (d : Document) (tree : Tree) : Option (Table String String) := do
  let pairs ← (← yamlPairs? d tree).mapM fun (key, value) => do
    return (← yamlText? d key, ← yamlText? d value)
  return Table.ofList pairs

/-- The options of a mapping by their names. A key that is no scalar is refused. -/
def yamlOptions? (d : Document) (pairs : List (Tree × Tree)) : Option (List (String × Tree)) :=
  pairs.mapM fun (key, value) => do return (← yamlText? d key, value)

/-- The value of an option, which may be absent but is not given twice. -/
def yamlOption? (options : List (String × Tree)) (name : String) : Option (Option Tree) :=
  match options.filter (·.1 = name) with
  | [] => some none
  | [(_, tree)] => some (some tree)
  | _ => none

/-- Reads the value of an option, with another one if it is absent. -/
def yamlField? {α : Type} (options : List (String × Tree)) (name : String) (absent : α)
    (read : Tree → Option α) : Option α := do
  match ← yamlOption? options name with
  | none => some absent
  | some tree => read tree

def ofYamlDocument? (d : Document) : Option Settings := do
  let options ← yamlOptions? d (← yamlPairs? d d.root)
  return {
    whiteListedClusters := ← yamlField? options clustersKey none (yamlOptional? d)
    defaultKeySerde := ← yamlField? options keySerdeKey none (yamlOptional? d)
    defaultValueSerde := ← yamlField? options valueSerdeKey none (yamlOptional? d)
    metadataTimeoutMs := ← yamlField? options timeoutKey Settings.standard.metadataTimeoutMs
      (yamlTimeout? d)
    consumer := ← yamlField? options consumerKey ∅ (yamlConsumer? d) }

def ofYaml (text : String) : Except SettingsError Settings :=
  match Yaml.parse? text with
  | none => .error (.invalidYaml text)
  | some none => .ok .standard
  | some (some document) =>
    match ofYamlDocument? document with
    | some settings => .ok settings
    | none => .error (.invalidYaml text)

end StreamAdmission.Settings
