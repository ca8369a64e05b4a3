import StreamAdmission.Json.Lexeme

/-!
# TOML strings and keys

White space, line ends, comments, the four kinds of strings, and keys. Readers take a text apart
from the front and give nothing if it does not start with what they read.
-/

namespace StreamAdmission.Toml

/-- Reads a value from the front of a text and leaves the rest. -/
abbrev Reader (α : Type) := List Char → Option (α × List Char)

def isSpace (c : Char) : Bool := c = ' ' || c = '\t'

def skipSpace (text : List Char) : List Char := text.dropWhile isSpace

/-- A line end, with or without a carriage return. -/
def skipNewline? : List Char → Option (List Char)
  | '\n' :: rest => some rest
  | '\r' :: '\n' :: rest => some rest
  | _ => none

/-- A character of a comment: anything but control characters, of which only the tab may stand. -/
def isCommentChar (c : Char) : Bool := c = '\t' || (' ' ≤ c && c ≠ '\x7f')

def skipComment : List Char → List Char
  | '#' :: rest => rest.dropWhile isCommentChar
  | text => text

/-- White space, a comment, and a line end or the end of the text. -/
def skipLineEnd? (text : List Char) : Option (List Char) :=
  match skipComment (skipSpace text) with
  | [] => some []
  | rest => skipNewline? rest

/-- White space, comments and line ends. A comment ends with its line. -/
def skipLines : List Char → List Char
  | [] => []
  | '\r' :: '\n' :: rest => skipLines rest
  | c :: rest => if isSpace c || c = '\n' then skipLines rest else c :: rest

/-- White space, line ends and comments, as many as there are; `steps` bounds the comments. -/
def skipFiller : Nat → List Char → List Char
  | 0, text => text
  | steps + 1, text =>
    match skipLines text with
    | '#' :: rest =>
      match skipNewline? (rest.dropWhile isCommentChar) with
      | some rest => skipFiller steps rest
      | none => '#' :: rest
    | rest => rest

/-! ### Strings -/

def isPlainChar (c : Char) : Bool := c = '\t' || (' ' ≤ c && c ≠ '\x7f')

def charOfHex? (digits : List Char) : Option Char := do
  let value ← digits.foldlM (fun value d => (Json.hexValue? d).map (value * 16 + ·)) 0
  if value.isValidChar then some (Char.ofNat value) else none

/-- The character that a backslash and a letter stand for. -/
def simpleEscape? : Char → Option Char
  | 'b' => some '\x08'
  | 'f' => some '\x0c'
  | 'n' => some '\n'
  | 'r' => some '\r'
  | 't' => some '\t'
  | '\\' => some '\\'
  | '"' => some '"'
  | _ => none

/-- What is left of a string, with one more character in front. -/
def consTo (c : Option Char) (tail : Option (List Char × List Char)) :
    Option (List Char × List Char) :=
  match c, tail with
  | some c, some (chars, rest) => some (c :: chars, rest)
  | _, _ => none

/-- Reads a string with escapes from behind its opening quote. -/
def readBasic : Reader (List Char)
  | [] => none
  | '"' :: rest => some ([], rest)
  | '\\' :: 'u' :: a :: b :: c :: d :: rest => consTo (charOfHex? [a, b, c, d]) (readBasic rest)
  | '\\' :: 'U' :: a :: b :: c :: d :: e :: f :: g :: h :: rest =>
    consTo (charOfHex? [a, b, c, d, e, f, g, h]) (readBasic rest)
  | '\\' :: c :: rest => consTo (simpleEscape? c) (readBasic rest)
  | c :: rest => if isPlainChar c && c ≠ '\\' then consTo (some c) (readBasic rest) else none

/-- Reads a string without escapes from behind its opening quote. -/
def readLiteral : Reader (List Char)
  | [] => none
  | '\x27' :: rest => some ([], rest)
  | c :: rest => if isPlainChar c then consTo (some c) (readLiteral rest) else none

/-- Reads the end of a string over several lines from behind three quotes; up to two more quotes
belong to the string. -/
def readClosing (quote : Char) : List Char → List Char × List Char
  | c :: d :: rest =>
    if c = quote then if d = quote then ([c, d], rest) else ([c], d :: rest)
    else ([], c :: d :: rest)
  | [c] => if c = quote then ([c], []) else ([], [c])
  | [] => ([], [])

/-- How a line end is taken in a string over several lines: as it is, as one that has to come
behind a backslash, or as one to be left out with the white space around it. -/
inductive LineMode where
  | kept
  | awaited
  | dropped
  deriving DecidableEq

/-- Reads a string over several lines, with escapes, from behind its opening quotes. -/
def readMultiBasic : LineMode → Reader (List Char)
  | _, [] => none
  | .awaited, '\r' :: '\n' :: rest => readMultiBasic .dropped rest
  | .awaited, c :: rest =>
    if isSpace c then readMultiBasic .awaited rest
    else if c = '\n' then readMultiBasic .dropped rest
    else none
  | .dropped, '\r' :: '\n' :: rest => readMultiBasic .dropped rest
  | _, '"' :: '"' :: '"' :: rest => some (readClosing '"' rest)
  | _, '\\' :: 'u' :: a :: b :: c :: d :: rest =>
    consTo (charOfHex? [a, b, c, d]) (readMultiBasic .kept rest)
  | _, '\\' :: 'U' :: a :: b :: c :: d :: e :: f :: g :: h :: rest =>
    consTo (charOfHex? [a, b, c, d, e, f, g, h]) (readMultiBasic .kept rest)
  | _, '\\' :: '\r' :: '\n' :: rest => readMultiBasic .dropped rest
  | _, '\\' :: c :: rest =>
    if isSpace c then readMultiBasic .awaited rest
    else if c = '\n' then readMultiBasic .dropped rest
    else consTo (simpleEscape? c) (readMultiBasic .kept rest)
  | _, '\r' :: '\n' :: rest => consTo (some '\n') (readMultiBasic .kept rest)
  | mode, c :: rest =>
    if mode = .dropped && (isSpace c || c = '\n') then readMultiBasic .dropped rest
    else if c = '\n' || (isPlainChar c && c ≠ '\\') then consTo (some c) (readMultiBasic .kept rest)
    else none

/-- Reads a string over several lines, without escapes, from behind its opening quotes. -/
def readMultiLiteral : Reader (List Char)
  | [] => none
  | '\x27' :: '\x27' :: '\x27' :: rest => some (readClosing '\x27' rest)
  | '\r' :: '\n' :: rest => consTo (some '\n') (readMultiLiteral rest)
  | c :: rest =>
    if c = '\n' || isPlainChar c then consTo (some c) (readMultiLiteral rest) else none

/-- A line end right behind the opening quotes does not belong to the string. -/
def dropFirstNewline (text : List Char) : List Char := (skipNewline? text).getD text

def readString : Reader String := fun text =>
  let read : Option (List Char × List Char) := match text with
    | '"' :: '"' :: '"' :: rest => readMultiBasic .kept (dropFirstNewline rest)
    | '"' :: rest => readBasic rest
    | '\x27' :: '\x27' :: '\x27' :: rest => readMultiLiteral (dropFirstNewline rest)
    | '\x27' :: rest => readLiteral rest
    | _ => none
  read.map fun (chars, rest) => (String.ofList chars, rest)

/-! ### Keys -/

def isBareChar (c : Char) : Bool := c.isAlphanum || c = '_' || c = '-'

def readKeyPart : Reader String := fun text =>
  match text with
  | '"' :: rest => (readBasic rest).map fun (chars, rest) => (String.ofList chars, rest)
  | '\x27' :: rest => (readLiteral rest).map fun (chars, rest) => (String.ofList chars, rest)
  | _ =>
    match text.takeWhile isBareChar with
    | [] => none
    | chars => some (String.ofList chars, text.dropWhile isBareChar)

def keyLimit : Nat := 80

/-- Reads the parts of a key, at most `steps` of them, with white space around each. -/
def readKeyParts : Nat → Reader (List String)
  | 0, _ => none
  | steps + 1, text => do
    let (part, rest) ← readKeyPart (skipSpace text)
    match skipSpace rest with
    | '.' :: rest => do
      let (parts, rest) ← readKeyParts steps rest
      return (part :: parts, rest)
    | rest => return ([part], rest)

/-- Reads a key: the parts that lead to a table, and the name in it. -/
def readKey : Reader (List String × String) := fun text => do
  let (parts, rest) ← readKeyParts (keyLimit - 1) text
  match parts.reverse with
  | [] => none
  | name :: path => return ((path.reverse, name), rest)

end StreamAdmission.Toml
