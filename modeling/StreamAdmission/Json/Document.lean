import StreamAdmission.Json.Failure

/-!
# Writing JSON

Documents of texts, natural numbers and objects, written on one line or over several lines with two
spaces per level. Only quotes, backslashes and control characters are escaped.
-/

namespace StreamAdmission.Json

/-- A document to be written; the members of an object keep their order. -/
inductive Document where
  | text (value : String)
  | number (value : Nat)
  | object (members : List (String × Document))

def hexPair (n : Nat) : List Char :=
  [Text.hexDigit (n / 16), Text.hexDigit (n % 16)]

/-- A character as it stands in a string. -/
def encodeChar (c : Char) : List Char :=
  if c = '"' then ['\\', '"']
  else if c = '\\' then ['\\', '\\']
  else if c = '\x08' then ['\\', 'b']
  else if c = '\t' then ['\\', 't']
  else if c = '\n' then ['\\', 'n']
  else if c = '\x0c' then ['\\', 'f']
  else if c = '\r' then ['\\', 'r']
  else if c < ' ' then ['\\', 'u', '0', '0'] ++ hexPair c.toNat
  else [c]

def encodeString (value : String) : List Char :=
  '"' :: value.toList.flatMap encodeChar ++ ['"']

namespace Document

mutual

/-- The document on one line without white space. -/
def compactChars : Document → List Char
  | .text value => encodeString value
  | .number value => Text.decimal value
  | .object members => '\x7b' :: compactMembers members

/-- The members that are left of an object, and its closing brace. -/
def compactMembers : List (String × Document) → List Char
  | [] => ['\x7d']
  | [(name, value)] => encodeString name ++ ':' :: compactChars value ++ ['\x7d']
  | (name, value) :: rest =>
    encodeString name ++ ':' :: compactChars value ++ ',' :: compactMembers rest

end

def newLine (level : Nat) : List Char := '\n' :: List.replicate (2 * level) ' '

mutual

/-- The document over several lines, as it stands at a level of indentation. -/
def prettyChars (level : Nat) : Document → List Char
  | .text value => encodeString value
  | .number value => Text.decimal value
  | .object [] => ['\x7b', '\x7d']
  | .object (member :: rest) => '\x7b' :: prettyMembers (level + 1) (member :: rest)

/-- The members that are left of an object, and its closing brace. -/
def prettyMembers (level : Nat) : List (String × Document) → List Char
  | [] => newLine (level - 1) ++ ['\x7d']
  | [(name, value)] =>
    newLine level ++ encodeString name ++ ':' :: ' ' :: prettyChars level value ++
      newLine (level - 1) ++ ['\x7d']
  | (name, value) :: rest =>
    newLine level ++ encodeString name ++ ':' :: ' ' :: prettyChars level value ++
      ',' :: prettyMembers level rest

end

def compact (d : Document) : String := String.ofList d.compactChars

def pretty (d : Document) : String := String.ofList (d.prettyChars 0)

end Document

end StreamAdmission.Json
