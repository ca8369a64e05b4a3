import StreamAdmission.Yaml.Scalar

/-!
# YAML tokens

The tokens of a text. Indentation becomes explicit: a block starts with a token of its own and ends
when a line is indented less. What may be a key is remembered until a colon tells that it is one;
the tokens for the key are then put in front of it.
-/

namespace StreamAdmission.Yaml

inductive Style where
  | plain
  | quoted
  | literal
  | folded
  deriving DecidableEq, Repr

inductive Token where
  | versionDirective (isKnown : Bool)
  | tagDirective (handle mark : List Char)
  | documentStart
  | documentEnd
  | blockSequenceStart
  | blockMappingStart
  | blockEnd
  | flowSequenceStart
  | flowSequenceEnd
  | flowMappingStart
  | flowMappingEnd
  | blockEntry
  | flowEntry
  | key
  | value
  | alias (name : List Char)
  | anchor (name : List Char)
  | tag (handle suffix : List Char)
  | scalar (style : Style) (text : List Char)
  deriving DecidableEq, Repr

/-- A place where a key may have started, and the number of tokens before it. A key is required
where a line of a block mapping starts. -/
structure PossibleKey where
  required : Bool
  number : Nat
  mark : Mark
  deriving DecidableEq, Repr

/-- The state of reading tokens. Tokens come last first; `possible` is the key that may have started
inside the innermost brackets, and `outerKeys` those outside of them. -/
structure Reading where
  rest : List Char
  mark : Mark
  indent : Int
  outerIndents : List Int
  keyAllowed : Bool
  possible : Option PossibleKey
  outerKeys : List (Option PossibleKey)
  tokens : List Token

namespace Reading

def start (text : List Char) : Reading := ⟨text, .start, -1, [], true, none, [], []⟩

def inFlow (r : Reading) : Bool := !r.outerKeys.isEmpty

def moveTo (r : Reading) (rest : List Char) : Reading :=
  { r with
    rest := rest
    mark := r.mark.behind (r.rest.take (r.rest.length - rest.length)) }

def emit (r : Reading) (token : Token) : Reading := { r with tokens := token :: r.tokens }

/-- Puts a token in front of all but a number of tokens. -/
def insertAt (r : Reading) (number : Nat) (token : Token) : Reading :=
  let later := r.tokens.length - number
  { r with tokens := r.tokens.take later ++ token :: r.tokens.drop later }

/-! ### Blocks and keys -/

/-- Ends the blocks that are indented more than a column. -/
def unroll (r : Reading) (column : Int) : Reading :=
  if r.inFlow then r else go r.outerIndents r.indent r.tokens
where
  go : List Int → Int → List Token → Reading
    | [], indent, tokens => { r with outerIndents := [], indent := indent, tokens := tokens }
    | outer :: others, indent, tokens =>
      if column < indent then go others outer (.blockEnd :: tokens)
      else { r with outerIndents := outer :: others, indent := indent, tokens := tokens }

/-- Starts a block at a column that is indented more than the block around it; its first token goes
behind a number of tokens. -/
def roll (r : Reading) (column number : Nat) (token : Token) : Reading :=
  if r.inFlow || (column : Int) ≤ r.indent then r
  else { r.insertAt number token with
    indent := column
    outerIndents := r.indent :: r.outerIndents }

/-- Whether a key that started at a mark can no longer be one: keys stay on one line and are at most
1024 bytes long. -/
def isStale (r : Reading) (key : PossibleKey) : Bool :=
  key.mark.line < r.mark.line || key.mark.index + 1024 < r.mark.index

/-- Forgets a key that can no longer be one; a required one may not be forgotten. -/
def refresh? (r : Reading) : Option PossibleKey → Option (Option PossibleKey)
  | none => some none
  | some key => if r.isStale key then if key.required then none else some none else some (some key)

def refreshKeys? (r : Reading) : Option Reading := do
  return { r with
    possible := ← r.refresh? r.possible
    outerKeys := ← r.outerKeys.mapM r.refresh? }

/-- Gives up the key that may have started, unless it is required. -/
def dropKey? (r : Reading) : Option Reading :=
  match r.possible with
  | some key => if key.required then none else some { r with possible := none }
  | none => some r

def saveKey? (r : Reading) : Option Reading :=
  if r.keyAllowed then do
    let required := !r.inFlow && r.indent = r.mark.column
    let r ← r.dropKey?
    return { r with possible := some ⟨required, r.tokens.length, r.mark⟩ }
  else some r

def allowKey (r : Reading) (allowed : Bool) : Reading := { r with keyAllowed := allowed }

/-! ### White space -/

/-- Passes over blanks and line ends. A byte order mark may stand in front of a line. Outside of
brackets a tab is no white space where a key may start, and after a line end a key may start. -/
def skipGap (inFlow : Bool) : Bool → Bool → List Char → Bool × List Char
  | _, keyAllowed, [] => (keyAllowed, [])
  | _, keyAllowed, '\r' :: '\n' :: rest => skipGap inFlow true (keyAllowed || !inFlow) rest
  | startsLine, keyAllowed, c :: rest =>
    if startsLine && c = '\ufeff' then skipGap inFlow false keyAllowed rest
    else if c = ' ' || (c = '\t' && (inFlow || !keyAllowed)) then
      skipGap inFlow false keyAllowed rest
    else if isBreak c then skipGap inFlow true (keyAllowed || !inFlow) rest
    else (keyAllowed, c :: rest)

/-- Passes over white space with comments in it; `steps` bounds their number. -/
def skipGaps (inFlow : Bool) : Nat → Bool → Bool → List Char → Bool × List Char
  | 0, _, keyAllowed, text => (keyAllowed, text)
  | steps + 1, startsLine, keyAllowed, text =>
    match skipGap inFlow startsLine keyAllowed text with
    | (keyAllowed, '#' :: rest) =>
      skipGaps inFlow steps false keyAllowed (rest.dropWhile (!isBreak ·))
    | result => result

def skipToToken (r : Reading) : Reading :=
  let (keyAllowed, rest) :=
    skipGaps r.inFlow (r.rest.length + 1) (r.mark.column = 0) r.keyAllowed r.rest
  { r.moveTo rest with keyAllowed := keyAllowed }

/-! ### Directives -/

def readShortNumber (text : List Char) : Option (List Char × List Char) :=
  let digits := text.takeWhile Json.isDigit
  if digits = [] ∨ 9 < digits.length then none else some (digits, text.dropWhile Json.isDigit)

def withoutZeros (digits : List Char) : List Char := digits.dropWhile (· = '0')

/-- Reads the version of a directive; the versions 1.1 and 1.2 are known. -/
def readVersion (text : List Char) : Option (Token × List Char) := do
  let (major, rest) ← readShortNumber (skipBlanks text)
  match rest with
  | '.' :: rest => do
    let (minor, rest) ← readShortNumber rest
    return (.versionDirective (withoutZeros major = ['1'] &&
      (withoutZeros minor = ['1'] || withoutZeros minor = ['2'])), rest)
  | _ => none

/-- Reads a handle: an exclamation mark, perhaps with a word and another one behind it. -/
def readHandle : List Char → Option (List Char × List Char)
  | '!' :: rest =>
    let word := rest.takeWhile isWordChar
    match rest.dropWhile isWordChar with
    | '!' :: behind => some ('!' :: word ++ ['!'], behind)
    | behind => some ('!' :: word, behind)
  | _ => none

/-- Whether a handle ends with an exclamation mark of its own. -/
def isFullHandle (handle : List Char) : Bool :=
  handle.length ≠ 1 && handle.getLast? = some '!'

/-- A character of a tag. The characters of structure are only allowed between angle brackets and in
directives. -/
def isTagChar (structural : Bool) (c : Char) : Bool :=
  isWordChar c || c = ';' || c = '/' || c = '?' || c = ':' || c = '@' || c = '&' || c = '=' ||
  c = '+' || c = '$' || c = '.' || c = '!' || c = '~' || c = '*' || c = '\x27' || c = '(' ||
  c = ')' || (structural && (c = ',' || c = '[' || c = ']'))

/-- The number of bytes of a character by the first of them. -/
def utf8Width? (byte : Nat) : Option Nat :=
  if byte < 0x80 then some 1
  else if 0xC0 ≤ byte ∧ byte < 0xE0 then some 2
  else if 0xE0 ≤ byte ∧ byte < 0xF0 then some 3
  else if 0xF0 ≤ byte ∧ byte < 0xF8 then some 4
  else none

/-- Reads the later bytes of a character that is written byte by byte, given the value of those
before. -/
def readLaterBytes : Nat → Nat → List Char → Option (Nat × List Char)
  | 0, value, rest => some (value, rest)
  | width + 1, value, '%' :: a :: b :: rest => do
    let byte := (← Json.hexValue? a) * 16 + (← Json.hexValue? b)
    if 0x80 ≤ byte ∧ byte < 0xC0 then readLaterBytes width (value * 64 + byte % 64) rest else none
  | _ + 1, _, _ => none

/-- Reads a character that is written as percent signs and bytes. One that is no character in its
shortest form is replaced. -/
def readEscapedChar : List Char → Option (Char × List Char)
  | '%' :: a :: b :: rest => do
    let byte := (← Json.hexValue? a) * 16 + (← Json.hexValue? b)
    let width ← utf8Width? byte
    if width = 1 then return (Char.ofNat byte, rest)
    let (value, rest) ← readLaterBytes (width - 1) (byte % (0x80 >>> width)) rest
    return (if value < 0x80 ∨ !value.isValidChar then '\ufffd' else Char.ofNat value, rest)
  | _ => none

/-- Reads the characters of a tag; `steps` bounds their number. -/
def readTagChars (structural : Bool) : Nat → List Char → Option (List Char × List Char)
  | 0, text => some ([], text)
  | steps + 1, text =>
    match text with
    | '%' :: rest => do
      let (c, rest) ← readEscapedChar ('%' :: rest)
      let (chars, rest) ← readTagChars structural steps rest
      return (c :: chars, rest)
    | c :: rest =>
      if isTagChar structural c then do
        let (chars, rest) ← readTagChars structural steps rest
        return (c :: chars, rest)
      else some ([], c :: rest)
    | [] => some ([], [])

/-- A part of a tag ends in front of a character with the number zero. -/
def cutAtZero (chars : List Char) : List Char := chars.takeWhile (· ≠ '\x00')

/-- Reads a tag directive: a handle and what it stands for. -/
def readTagDirective (text : List Char) : Option (Token × List Char) := do
  let (handle, rest) ← readHandle (skipBlanks text)
  if !(isFullHandle handle || handle = ['!']) then none
  match rest with
  | c :: _ => if !isBlank c then none
  | [] => none
  let (mark, rest) ← readTagChars true rest.length (skipBlanks rest)
  if mark = [] || !atGap rest then none
  return (.tagDirective handle (cutAtZero mark), rest)

def readDirective (text : List Char) : Option (Token × List Char) := do
  let name := text.takeWhile isWordChar
  let rest := text.dropWhile isWordChar
  if !atGap rest then none
  let (token, rest) ← if name = ['Y', 'A', 'M', 'L'] then readVersion rest
    else if name = ['T', 'A', 'G'] then readTagDirective rest
    else none
  return (token, ← skipLineEnd? rest)

/-! ### Anchors and tags -/

def endsAnchor : List Char → Bool
  | [] => true
  | c :: _ => atGap [c] || c = '?' || c = ':' || c = ',' || c = ']' || c = '\x7d' || c = '%' ||
    c = '@' || c = '\x60'

def readAnchor (text : List Char) : Option (List Char × List Char) :=
  let name := text.takeWhile isWordChar
  let rest := text.dropWhile isWordChar
  if name = [] || !endsAnchor rest then none else some (name, rest)

/-- Reads a tag: between angle brackets, or with a handle in front. -/
def readTag (text : List Char) : Option (Token × List Char) :=
  match text with
  | '!' :: '<' :: rest => do
    let (suffix, rest) ← readTagChars true rest.length rest
    match rest with
    | '>' :: rest => if suffix = [] then none else return (.tag [] (cutAtZero suffix), rest)
    | _ => none
  | _ => do
    let (handle, rest) ← readHandle text
    let (chars, rest) ← readTagChars false rest.length rest
    if isFullHandle handle then
      if chars = [] then none else return (.tag handle (cutAtZero chars), rest)
    else
      match cutAtZero (handle.drop 1 ++ chars) with
      | [] => return (.tag [] ['!'], rest)
      | suffix => return (.tag ['!'] suffix, rest)

/-! ### Reading tokens -/

/-- Goes back to no indentation, where only a document or a directive may start. -/
def leaveBlocks? (r : Reading) : Option Reading := do
  return (← (r.unroll (-1)).dropKey?).allowKey false

def readDocumentMark (r : Reading) (token : Token) : Option Reading := do
  let r ← r.leaveBlocks?
  return (r.moveTo (r.rest.drop 3)).emit token

def openFlow (r : Reading) (token : Token) : Option Reading := do
  let r ← r.saveKey?
  return { (r.moveTo (r.rest.drop 1)).emit token with
    possible := none
    outerKeys := r.possible :: r.outerKeys
    keyAllowed := true }

def closeFlow (r : Reading) (token : Token) : Option Reading := do
  let r ← r.dropKey?
  let next := ((r.moveTo (r.rest.drop 1)).emit token).allowKey false
  match r.outerKeys with
  | key :: outer => return { next with possible := key, outerKeys := outer }
  | [] => return next

def readFlowEntry (r : Reading) : Option Reading := do
  let r ← r.dropKey?
  return ((r.moveTo (r.rest.drop 1)).emit .flowEntry).allowKey true

/-- Starts a block here if it is indented more than the one around it. -/
def startBlock? (r : Reading) (token : Token) : Option Reading :=
  if r.inFlow then some r
  else if r.keyAllowed then some (r.roll r.mark.column r.tokens.length token)
  else none

def readBlockEntry (r : Reading) : Option Reading := do
  let r ← (← r.startBlock? .blockSequenceStart).dropKey?
  return ((r.moveTo (r.rest.drop 1)).emit .blockEntry).allowKey true

def readKeyMark (r : Reading) : Option Reading := do
  let r ← (← r.startBlock? .blockMappingStart).dropKey?
  return ((r.moveTo (r.rest.drop 1)).emit .key).allowKey !r.inFlow

/-- Makes a key of what may have been one, the colon behind it being reached. -/
def completeKey (r : Reading) (key : PossibleKey) : Reading :=
  ({ r.insertAt key.number .key with possible := none }.roll key.mark.column key.number
    .blockMappingStart).allowKey false

/-- Reads the colon in front of a value. -/
def readValueMark (r : Reading) : Option Reading :=
  let ready : Option Reading := match r.possible with
    | some key => some (r.completeKey key)
    | none => (r.startBlock? .blockMappingStart).map (·.allowKey !r.inFlow)
  ready.map fun r => (r.moveTo (r.rest.drop 1)).emit .value

/-- Reads a token of which a key may consist. -/
def readContent (r : Reading) (read : List Char → Option (Token × List Char)) : Option Reading := do
  let r ← r.saveKey?
  let (token, rest) ← read r.rest
  return ((r.moveTo rest).emit token).allowKey false

def readBlockScalar (r : Reading) (style : Style) : Option Reading := do
  let r ← r.dropKey?
  let (text, rest) ← readBlock (style = .folded) r.indent (r.rest.drop 1)
  return ((r.moveTo rest).emit (.scalar style text)).allowKey true

/-- Reads a plain scalar. If it ends with its line a key may start behind it. -/
def readPlainScalar (r : Reading) : Option Reading := do
  let r ← r.saveKey?
  let scalar ← readPlain r.inFlow (r.indent + 1).toNat r.mark.column r.rest
  return ((r.moveTo scalar.rest).emit (.scalar .plain scalar.chars)).allowKey scalar.endsLine

/-- Whether a plain scalar may start with the text. -/
def startsPlain (inFlow : Bool) : List Char → Bool
  | [] => false
  | c :: rest =>
    if c = '-' then true
    else if c = '?' || c = ':' then !inFlow && !atGap rest
    else !(atGap [c] || isFlowIndicator c || c = '#' || c = '&' || c = '*' || c = '!' || c = '|' ||
      c = '>' || c = '\x27' || c = '"' || c = '%' || c = '@' || c = '\x60')

/-- Reads the token at the front of a text that is not at its end. -/
def readToken (r : Reading) : Option Reading :=
  if r.mark.column = 0 && r.rest.head? = some '%' then do
    let r ← r.leaveBlocks?
    let (token, rest) ← readDirective (r.rest.drop 1)
    return (r.moveTo rest).emit token
  else if r.mark.column = 0 && atDocumentMark r.rest then
    r.readDocumentMark (if r.rest.head? = some '-' then .documentStart else .documentEnd)
  else
    match r.rest with
    | [] => some r
    | c :: rest =>
      if c = '[' then r.openFlow .flowSequenceStart
      else if c = '\x7b' then r.openFlow .flowMappingStart
      else if c = ']' then r.closeFlow .flowSequenceEnd
      else if c = '\x7d' then r.closeFlow .flowMappingEnd
      else if c = ',' then r.readFlowEntry
      else if c = '-' && atGap rest then r.readBlockEntry
      else if c = '?' && (r.inFlow || atGap rest) then r.readKeyMark
      else if c = ':' && (r.inFlow || atGap rest) then r.readValueMark
      else if c = '*' then r.readContent fun text =>
        (readAnchor (text.drop 1)).map fun (name, rest) => (.alias name, rest)
      else if c = '&' then r.readContent fun text =>
        (readAnchor (text.drop 1)).map fun (name, rest) => (.anchor name, rest)
      else if c = '!' then r.readContent fun text => do
        let (token, rest) ← readTag text
        if atGap rest || (r.inFlow && rest.head? = some ',') then some (token, rest) else none
      else if c = '|' && !r.inFlow then r.readBlockScalar .literal
      else if c = '>' && !r.inFlow then r.readBlockScalar .folded
      else if c = '\x27' then r.readContent fun text =>
        (readSingle [] .none false (text.drop 1)).map fun (chars, rest) =>
          (.scalar .quoted chars, rest)
      else if c = '"' then r.readContent fun text =>
        (readDouble [] .none false (text.drop 1)).map fun (chars, rest) =>
          (.scalar .quoted chars, rest)
      else if startsPlain r.inFlow r.rest then r.readPlainScalar
      else none

/-- Reads all tokens; `steps` bounds their number. -/
def readAll : Nat → Reading → Option (List Token)
  | 0, _ => none
  | steps + 1, r => do
    let r ← r.skipToToken.refreshKeys?
    if r.rest = [] then
      let r ← (r.unroll (-1)).dropKey?
      return r.tokens.reverse
    else readAll steps (← (r.unroll r.mark.column).readToken)

end Reading

def tokens? (text : List Char) : Option (List Token) :=
  if text.all isAllowed then Reading.readAll (text.length + 1) (.start text) else none

end StreamAdmission.Yaml
