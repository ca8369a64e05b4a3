/-!
# YAML characters

Which characters a text may hold, where its lines end, and places in it. A carriage return with a
line feed behind it is one line break.
-/

namespace StreamAdmission.Yaml

def isAllowed (c : Char) : Bool :=
  c = '\t' || c = '\n' || c = '\r' || (' ' ≤ c && c ≤ '~') || c = '\x85' ||
  ('\xa0' ≤ c && c ≤ '\ufffd') || '\uffff' < c

def isBlank (c : Char) : Bool := c = ' ' || c = '\t'

def isBreak (c : Char) : Bool :=
  c = '\n' || c = '\r' || c = '\x85' || c = '\u2028' || c = '\u2029'

/-- What a line break stands for in a scalar: a line feed, unless it is a separator that keeps its
meaning. -/
def breakChar (c : Char) : Char := if c = '\u2028' ∨ c = '\u2029' then c else '\n'

def isWordChar (c : Char) : Bool := c.isAlphanum || c = '_' || c = '-'

/-- Whether the text starts with a blank or a line break, or is at its end. -/
def atGap : List Char → Bool
  | [] => true
  | c :: _ => isBlank c || isBreak c

def atLineEnd : List Char → Bool
  | [] => true
  | c :: _ => isBreak c

def skipBreak : List Char → List Char
  | '\r' :: '\n' :: rest => rest
  | c :: rest => if isBreak c then rest else c :: rest
  | [] => []

/-- Whether the text starts with one of the marks that start or end a document, which are only marks
at the start of a line. -/
def atDocumentMark : List Char → Bool
  | '-' :: '-' :: '-' :: rest => atGap rest
  | '.' :: '.' :: '.' :: rest => atGap rest
  | _ => false

def skipBlanks (text : List Char) : List Char := text.dropWhile isBlank

def skipComment : List Char → List Char
  | '#' :: rest => rest.dropWhile (!isBreak ·)
  | text => text

/-- Passes over blanks and a comment, behind which the line has to end, and over its end. -/
def skipLineEnd? (text : List Char) : Option (List Char) :=
  let rest := skipComment (skipBlanks text)
  if atLineEnd rest then some (skipBreak rest) else none

/-- A place in a text: the number of bytes before it, its line, and its column in characters. -/
structure Mark where
  index : Nat
  line : Nat
  column : Nat
  deriving DecidableEq, Repr

namespace Mark

def start : Mark := ⟨0, 0, 0⟩

/-- The place behind some characters that stand at a place. -/
def behind (m : Mark) : List Char → Mark
  | [] => m
  | '\r' :: '\n' :: rest => behind ⟨m.index + 2, m.line + 1, 0⟩ rest
  | c :: rest =>
    if isBreak c then behind ⟨m.index + c.utf8Size, m.line + 1, 0⟩ rest
    else behind ⟨m.index + c.utf8Size, m.line, m.column + 1⟩ rest

end Mark

end StreamAdmission.Yaml
