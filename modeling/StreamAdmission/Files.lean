import StreamAdmission.Settings.Basic

/-!
# File trees

Files and directories below a working directory, and what comes of reading a path from there. A path
is followed name by name; only a directory has anything below it, `.` and `..` included. Names and
whole paths are limited in their bytes, and the character with the number zero stands in none.
-/

namespace StreamAdmission

inductive FileEntry where
  | file (content : ByteArray)
  | directory

/-- The entries of a working directory and of the directories below it, by the names that lead to
them. Names are texts; those that are not encoded in UTF-8, which a system may allow, are left out. -/
structure FileTree where
  entries : List (List String × FileEntry)

/-- The parts of a path between its slashes; a part may be empty. -/
def pathParts (path : String) : List String :=
  (Text.splitAll '/' path.toList).map String.ofList

def nameLimit : Nat := 255

def pathLimit : Nat := 4095

def isLongName (name : String) : Bool := nameLimit < name.utf8ByteSize

def textOf : Except ReadError FileEntry → Except ReadError String
  | .error e => .error e
  | .ok .directory => .error .isDirectory
  | .ok (.file content) =>
    match String.fromUTF8? content with
    | some text => .ok text
    | none => .error .notText

/-- What is wrong with a path wherever it may lead. -/
def pathFault? (path : String) : Option ReadError :=
  if '\x00' ∈ path.toList then some .zeroInName
  else if pathLimit < path.utf8ByteSize then some .nameTooLong
  else none

namespace FileTree

def ofPaths (paths : List (String × FileEntry)) : FileTree :=
  ⟨paths.map fun (path, entry) => (pathParts path, entry)⟩

/-- What some names lead to. There is a directory wherever an entry stands below. -/
def find? (tree : FileTree) (names : List String) : Option FileEntry :=
  match tree.entries.find? (·.1 = names) with
  | some (_, entry) => some entry
  | none =>
    if names = [] ∨ tree.entries.any (names.isPrefixOf ·.1) then some .directory else none

/-- What a path leads to outside the tree, where no names are known. -/
def followOutside : List String → Except ReadError FileEntry
  | [] => .ok .directory
  | part :: parts =>
    if part = "" ∨ part = "." ∨ part = ".." then followOutside parts
    else .error (if isLongName part then .nameTooLong else .notFound)

/-- What a path leads to, the names on the way to the directory it starts from being given. -/
def follow (tree : FileTree) (names : List String) : List String → Except ReadError FileEntry
  | [] =>
    match tree.find? names with
    | some entry => .ok entry
    | none => .error .notFound
  | part :: parts =>
    match tree.find? names with
    | none => .error .notFound
    | some (.file _) => .error .notDirectory
    | some .directory =>
      if part = "" ∨ part = "." then follow tree names parts
      else if part = ".." then
        match names.reverse with
        | [] => followOutside parts
        | _ :: above => follow tree above.reverse parts
      else if isLongName part then .error .nameTooLong
      else follow tree (names ++ [part]) parts

/-- What a path leads to from the working directory; a slash in front leaves it. -/
def lookup (tree : FileTree) (path : String) : Except ReadError FileEntry :=
  match pathFault? path with
  | some e => .error e
  | none =>
    match pathParts path with
    | [""] => .error .notFound
    | "" :: parts => followOutside parts
    | parts => tree.follow [] parts

def read (tree : FileTree) (path : String) : Except ReadError String := textOf (tree.lookup path)

end FileTree

end StreamAdmission
