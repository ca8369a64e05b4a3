import StreamAdmission.Settings.Toml
import StreamAdmission.Settings.Yaml

/-!
# Settings from files

The format of a file is told by the extension of its name. The file is read first, so a file that
cannot be read is reported as such whatever its name.
-/

namespace StreamAdmission.Settings

inductive FileFormat where
  | toml
  | yaml
  deriving DecidableEq, Repr

/-- The last part of a path that names something; slashes and single dots at the end do not. -/
def fileName? (path : List Char) : Option (List Char) :=
  match ((Text.splitAll '/' path).reverse.dropWhile fun part => part = [] ∨ part = ['.']) with
  | [] => none
  | part :: _ => if part = ['.', '.'] then none else some part

/-- What stands behind the last dot of a name, unless that dot comes first. -/
def extensionOf? (name : List Char) : Option (List Char) :=
  match Text.splitLast? '.' name with
  | some (_ :: _, extension) => some extension
  | _ => none

def formatOf? (path : String) : Option FileFormat :=
  match (fileName? path.toList).bind extensionOf? with
  | none => none
  | some extension =>
    if extension = "toml".toList then some .toml
    else if extension = "yaml".toList ∨ extension = "yml".toList then some .yaml
    else none

/-- Reads settings from a text in the format that the path tells. -/
def ofText (path text : String) : Except SettingsError Settings :=
  match formatOf? path with
  | some .toml => ofToml text
  | some .yaml => ofYaml text
  | none => .error (.unsupportedFormat path)

/-- Reads settings from a file. A path is a text; paths that are not encoded in UTF-8, which a system
may allow, are left out. -/
def ofFile (read : String → Except ReadError String) (path : String) :
    Except SettingsError Settings :=
  match read path with
  | .error e => .error (.unreadable path e)
  | .ok text => ofText path text

end StreamAdmission.Settings
