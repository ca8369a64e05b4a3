import StreamAdmission.Toml.Scalar

/-!
# TOML documents

A document is a sequence of sections, each with a header and entries. Its tree follows from them, by
the rule that a table is defined once: a header may define a table that was only passed through by
other headers, a key with dots may extend a table that was made by such keys, and nothing may be
given twice.
-/

namespace StreamAdmission.Toml

/-- How a table came about: by its own header or braces, by headers of tables within it, or by keys
with dots. -/
inductive TableKind where
  | defined
  | implied
  | dotted
  deriving DecidableEq, Repr

/-- A node of a document's tree. The elements of `tables` are those of an array of tables. -/
inductive Node where
  | string (value : String)
  | scalar (value : Scalar)
  | array
  | inlineTable (members : List (String × Node))
  | table (kind : TableKind) (members : List (String × Node))
  | tables (elements : List (List (String × Node)))

/-- An entry: the path and the name in its key, and its value. -/
structure Entry where
  path : List String
  name : String
  value : Node

inductive Header where
  | root
  | table (path : List String) (name : String)
  | element (path : List String) (name : String)

structure Section where
  header : Header
  entries : List Entry

abbrev Members := List (String × Node)

def find? (name : String) : Members → Option Node
  | [] => none
  | (other, node) :: rest => if other = name then some node else find? name rest

/-- Puts a node under a name, in place of the one that is there. -/
def put (name : String) (node : Node) : Members → Members
  | [] => [(name, node)]
  | (other, old) :: rest =>
    if other = name then (name, node) :: rest else (other, old) :: put name node rest

/-- Enters a value under a name that must be new. -/
def enter (name : String) (node : Node) (members : Members) : Option Members :=
  match find? name members with
  | none => some (put name node members)
  | some _ => none

/-- Enters a value at the end of a path inside a table of some kind. The path may make new tables
and extend those made by keys with dots, and at its end there must be one of these. -/
def enterAt (name : String) (value : Node) : List String → TableKind → Members → Option Members
  | [], kind, members => if kind = .dotted then enter name value members else none
  | part :: path, _, members =>
    match find? part members with
    | none => do
      return put part (.table .dotted (← enterAt name value path .dotted [])) members
    | some (.table .defined _) => none
    | some (.table kind inner) => do
      return put part (.table kind (← enterAt name value path kind inner)) members
    | some (.tables elements) =>
      match elements.reverse with
      | [] => none
      | last :: before => do
        let last ← enterAt name value path .defined last
        return put part (.tables (last :: before).reverse) members
    | some _ => none

def enterEntry (members : Members) (entry : Entry) : Option Members :=
  match entry.path with
  | [] => enter entry.name entry.value members
  | path => enterAt entry.name entry.value path .defined members

def enterAll (entries : List Entry) (members : Members) : Option Members :=
  entries.foldlM enterEntry members

/-- Changes the members of the table at the end of a path of headers, making tables as needed. -/
def changeAt (change : Members → Option Members) : List String → Members → Option Members
  | [], members => change members
  | part :: path, members =>
    match find? part members with
    | none => do return put part (.table .implied (← changeAt change path [])) members
    | some (.table kind inner) => do
      return put part (.table kind (← changeAt change path inner)) members
    | some (.tables elements) =>
      match elements.reverse with
      | [] => none
      | last :: before => do
        return put part (.tables ((← changeAt change path last) :: before).reverse) members
    | some _ => none

def enterSection (members : Members) (s : Section) : Option Members :=
  match s.header with
  | .root => enterAll s.entries members
  | .table path name =>
    changeAt (fun parent =>
      match find? name parent with
      | none => do return put name (.table .defined (← enterAll s.entries [])) parent
      | some (.table .implied inner) => do
        return put name (.table .defined (← enterAll s.entries inner)) parent
      | some _ => none) path members
  | .element path name =>
    changeAt (fun parent =>
      match find? name parent with
      | none => do return put name (.tables [← enterAll s.entries []]) parent
      | some (.tables elements) => do
        return put name (.tables (elements ++ [← enterAll s.entries []])) parent
      | some _ => none) path members

def treeOf? (sections : List Section) : Option Members := sections.foldlM enterSection []

/-! ### Reading -/

/-- Reads the values of an array from behind its opening bracket; `steps` bounds their number. -/
def readElements (readValue : Reader Node) : Nat → List Char → Option (List Char)
  | 0, _ => none
  | steps + 1, text =>
    match skipFiller text.length text with
    | ']' :: rest => some rest
    | text => do
      let (_, rest) ← readValue text
      match skipFiller rest.length rest with
      | ']' :: rest => some rest
      | ',' :: rest => readElements readValue steps rest
      | _ => none

def readEntry (readValue : Reader Node) : Reader Entry := fun text => do
  let ((path, name), rest) ← readKey text
  match rest with
  | '=' :: rest => do
    let (value, rest) ← readValue (skipSpace rest)
    return (⟨path, name, value⟩, rest)
  | _ => none

/-- Reads the entries of a table in braces from behind the opening one; `steps` bounds their
number. -/
def readInlineEntries (readValue : Reader Node) : Nat → Reader (List Entry)
  | 0, _ => none
  | steps + 1, text => do
    let (entry, rest) ← readEntry readValue text
    match skipSpace rest with
    | '\x7d' :: rest => return ([entry], rest)
    | ',' :: rest => do
      let (entries, rest) ← readInlineEntries readValue steps rest
      return (entry :: entries, rest)
    | _ => none

def readInlineTable (readValue : Reader Node) : Reader Node := fun text =>
  match skipSpace text with
  | '\x7d' :: rest => some (.inlineTable [], rest)
  | _ => do
    let (entries, rest) ← readInlineEntries readValue text.length text
    return (.inlineTable (← enterAll entries []), rest)

/-- Reads a value whose brackets are nested to a limited depth. -/
def readValue : Nat → Reader Node
  | 0, text => readFlat text
  | depth + 1, text =>
    match text with
    | '[' :: rest => (readElements (readValue depth) text.length rest).map (.array, ·)
    | '\x7b' :: rest => readInlineTable (readValue depth) rest
    | _ => readFlat text
where
  /-- Reads a value without brackets. -/
  readFlat (text : List Char) : Option (Node × List Char) :=
    match text with
    | '"' :: _ => (readString text).map fun (value, rest) => (.string value, rest)
    | '\x27' :: _ => (readString text).map fun (value, rest) => (.string value, rest)
    | _ => (readScalar text).map fun (value, rest) => (.scalar value, rest)

/-- Brackets are nested less deep than this. -/
def depthLimit : Nat := 80

def readHeader : Reader Header
  | '[' :: rest => do
    let ((path, name), rest) ← readKey rest
    match rest with
    | ']' :: ']' :: rest => return (.element path name, rest)
    | _ => none
  | text => do
    let ((path, name), rest) ← readKey text
    match rest with
    | ']' :: rest => return (.table path name, rest)
    | _ => none

/-- Reads the lines of a document, the section to which they belong being open; `steps` bounds their
number. -/
def readSections : Nat → Header → List Entry → List Char → Option (List Section)
  | 0, _, _, _ => none
  | steps + 1, header, entries, text =>
    match skipSpace text with
    | [] => some [⟨header, entries.reverse⟩]
    | '#' :: rest => do readSections steps header entries (← skipLineEnd? ('#' :: rest))
    | '\n' :: rest => readSections steps header entries rest
    | '\r' :: rest => do readSections steps header entries (← skipNewline? ('\r' :: rest))
    | '[' :: rest => do
      let (next, rest) ← readHeader rest
      let sections ← readSections steps next [] (← skipLineEnd? rest)
      return ⟨header, entries.reverse⟩ :: sections
    | text => do
      let (entry, rest) ← readEntry (readValue (depthLimit - 1)) text
      readSections steps header (entry :: entries) (← skipLineEnd? rest)

def parse? (text : String) : Option Members := do
  let chars := match text.toList with
    | '\ufeff' :: rest => rest
    | chars => chars
  treeOf? (← readSections (chars.length + 1) .root [] chars)

end StreamAdmission.Toml
