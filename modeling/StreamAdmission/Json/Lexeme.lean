import StreamAdmission.Json.Failure

/-!
# JSON lexemes

White space, words, strings and numbers at the front of a text. Strings and numbers are read from
behind their opening quote or minus sign.
-/

namespace StreamAdmission.Json

def isSpace (c : Char) : Bool := c = ' ' || c = '\n' || c = '\t' || c = '\r'

def skipSpace (text : List Char) : List Char := text.dropWhile isSpace

def isDigit (c : Char) : Bool := '0' ≤ c && c ≤ '9'

def hexValue? (c : Char) : Option Nat :=
  if '0' ≤ c ∧ c ≤ '9' then some (c.toNat - '0'.toNat)
  else if 'a' ≤ c ∧ c ≤ 'f' then some (c.toNat - 'a'.toNat + 10)
  else if 'A' ≤ c ∧ c ≤ 'F' then some (c.toNat - 'A'.toNat + 10)
  else none

def readWord : List Char → List Char → Except Failure (List Char)
  | [], text => .ok text
  | _, [] => .error (.before .valueEnds [])
  | letter :: letters, c :: rest =>
    if c = letter then readWord letters rest else .error (.at .expectedWord (c :: rest))

/-! ### Strings -/

def hexQuad? (a b c d : Char) : Option Nat :=
  match hexValue? a, hexValue? b, hexValue? c, hexValue? d with
  | some a, some b, some c, some d => some (((a * 16 + b) * 16 + c) * 16 + d)
  | _, _, _, _ => none

/-- The failure of a text that does not start with four hexadecimal digits; one of less than four
bytes is used up. -/
def hexFailure (text : List Char) : Failure :=
  if byteSize text < 4 then .before .stringEnds [] else ⟨.invalidEscape, text, 4⟩

def readHexQuad : Reader Nat
  | a :: b :: c :: d :: rest =>
    match hexQuad? a b c d with
    | some value => .ok (value, rest)
    | none => .error (hexFailure (a :: b :: c :: d :: rest))
  | text => .error (hexFailure text)

def isHighSurrogate (n : Nat) : Bool := 0xD800 ≤ n && n ≤ 0xDBFF

def isLowSurrogate (n : Nat) : Bool := 0xDC00 ≤ n && n ≤ 0xDFFF

/-- Reads the second half of a surrogate pair, an escape of its own. -/
def readLowSurrogate (high : Nat) : Reader Char
  | '\\' :: 'u' :: rest =>
    match readHexQuad rest with
    | .error failure => .error failure
    | .ok (low, rest) =>
      if isLowSurrogate low then
        .ok (Char.ofNat (0x10000 + (high - 0xD800) * 0x400 + (low - 0xDC00)), rest)
      else .error (.before .loneSurrogate rest)
  | [] => .error (.before .stringEnds [])
  | ['\\'] => .error (.before .stringEnds [])
  | '\\' :: rest => .error (.at .surrogateEnds rest)
  | rest => .error (.at .surrogateEnds rest)

/-- Reads the digits of a `\u` escape, and the second escape of a surrogate pair. -/
def readUnicodeEscape : Reader Char := fun text =>
  match readHexQuad text with
  | .error failure => .error failure
  | .ok (value, rest) =>
    if isLowSurrogate value then .error (.before .loneSurrogate rest)
    else if isHighSurrogate value then readLowSurrogate value rest
    else .ok (Char.ofNat value, rest)

/-- The character that a backslash and a letter stand for. -/
def simpleEscape? : Char → Option Char
  | '"' => some '"'
  | '\\' => some '\\'
  | '/' => some '/'
  | 'b' => some '\x08'
  | 'f' => some '\x0c'
  | 'n' => some '\n'
  | 'r' => some '\r'
  | 't' => some '\t'
  | _ => none

def readEscape : Reader Char
  | [] => .error (.before .stringEnds [])
  | 'u' :: rest => readUnicodeEscape rest
  | c :: rest =>
    match simpleEscape? c with
    | some value => .ok (value, rest)
    | none => .error (.at .invalidEscape (c :: rest))

theorem readHexQuad_length {text rest : List Char} {value : Nat}
    (h : readHexQuad text = .ok (value, rest)) : rest.length < text.length := by
  unfold readHexQuad at h
  split at h
  · split at h <;> simp at h
    obtain ⟨rfl, rfl⟩ := h
    simp
    omega
  · simp at h

theorem readLowSurrogate_length {high : Nat} {text rest : List Char} {c : Char}
    (h : readLowSurrogate high text = .ok (c, rest)) : rest.length < text.length := by
  unfold readLowSurrogate at h
  split at h
  · split at h
    · simp at h
    · rename_i hq
      have := readHexQuad_length hq
      split at h <;> simp at h
      obtain ⟨rfl, rfl⟩ := h
      simp
      omega
  all_goals simp at h

theorem readUnicodeEscape_length {text rest : List Char} {c : Char}
    (h : readUnicodeEscape text = .ok (c, rest)) : rest.length < text.length := by
  unfold readUnicodeEscape at h
  split at h
  · simp at h
  · rename_i hq
    have shorter := readHexQuad_length hq
    split at h
    · simp at h
    · split at h
      · exact Nat.lt_trans (readLowSurrogate_length h) shorter
      · simp at h
        obtain ⟨rfl, rfl⟩ := h
        exact shorter

theorem readEscape_length {text rest : List Char} {c : Char}
    (h : readEscape text = .ok (c, rest)) : rest.length < text.length := by
  unfold readEscape at h
  split at h
  · simp at h
  · have := readUnicodeEscape_length h
    simp
    omega
  · split at h <;> simp at h
    obtain ⟨rfl, rfl⟩ := h
    simp

def readStringChars : Reader (List Char)
  | [] => .error (.before .stringEnds [])
  | '"' :: rest => .ok ([], rest)
  | '\\' :: rest =>
    match h : readEscape rest with
    | .error failure => .error failure
    | .ok (c, behind) =>
      have : behind.length < rest.length := readEscape_length h
      match readStringChars behind with
      | .error failure => .error failure
      | .ok (chars, behind) => .ok (c :: chars, behind)
  | c :: rest =>
    if c < ' ' then .error (.at .controlCharacter (c :: rest))
    else
      match readStringChars rest with
      | .error failure => .error failure
      | .ok (chars, behind) => .ok (c :: chars, behind)
termination_by text => text.length

/-- Reads a string from behind its opening quote. -/
def readStringRest : Reader String := fun text =>
  match readStringChars text with
  | .error failure => .error failure
  | .ok (chars, rest) => .ok (String.ofList chars, rest)

/-! ### Numbers -/

/-- The greatest natural number, and the largest significand that is kept. -/
def maxNatural : Nat := 0xffffffffffffffff

def minInteger : Int := -0x8000000000000000

/-- The greatest integer where negative ones are wanted too. -/
def maxInteger : Int := 0x7fffffffffffffff

/-- Appends digits to a significand as long as it stays in range. -/
def readSignificand (significand : Nat) : List Char → Nat × List Char
  | [] => (significand, [])
  | c :: rest =>
    match Text.digitValue? c with
    | some d =>
      if significand * 10 + d ≤ maxNatural then readSignificand (significand * 10 + d) rest
      else (significand, c :: rest)
    | none => (significand, c :: rest)

/-- The largest exponent that is read digit by digit. -/
def maxExponent : Nat := 0x7fffffff

/-- Appends digits to an exponent. None if it leaves its range, with the text behind the digit
where it does. -/
def readExponentDigits (exponent : Nat) : List Char → Option Nat × List Char
  | [] => (some exponent, [])
  | c :: rest =>
    match Text.digitValue? c with
    | some d =>
      if exponent * 10 + d ≤ maxExponent then readExponentDigits (exponent * 10 + d) rest
      else (none, rest)
    | none => (some exponent, c :: rest)

/-- A decimal point in the exponent moves within 32 bits. -/
def clampExponent (exponent : Int) : Int := max (-0x80000000) (min 0x7fffffff exponent)

/-- The value `significand * 10 ^ exponent`, at the end of the number's text. -/
def makeFloat (isNegative : Bool) (significand : Nat) (exponent : Int) : Reader Number :=
  fun rest =>
    match ((Decimal.Binary64.ofNat significand).bind (·.scaleTen exponent)) with
    | some magnitude => .ok (.floating isNegative magnitude, rest)
    | none => .error (.before .numberOutOfRange rest)

def readSignedExponent (isNegative : Bool) (significand : Nat) (start : Int) (up : Bool) :
    Reader Number
  | [] => .error (.before .valueEnds [])
  | c :: rest =>
    match Text.digitValue? c with
    | none => .error (.at .invalidNumber (c :: rest))
    | some d =>
      match readExponentDigits d rest with
      | (some exponent, rest) =>
        makeFloat isNegative significand
          (clampExponent (if up then start + exponent else start - exponent)) rest
      | (none, rest) =>
        if significand ≠ 0 && up then .error (.before .numberOutOfRange rest)
        else .ok (.floating isNegative .zero, rest.dropWhile isDigit)

/-- Reads an exponent from behind its letter. -/
def readExponent (isNegative : Bool) (significand : Nat) (start : Int) : Reader Number
  | '+' :: rest => readSignedExponent isNegative significand start true rest
  | '-' :: rest => readSignedExponent isNegative significand start false rest
  | rest => readSignedExponent isNegative significand start true rest

def readOptionalExponent (isNegative : Bool) (significand : Nat) (start : Int) : Reader Number
  | 'e' :: rest => readExponent isNegative significand start rest
  | 'E' :: rest => readExponent isNegative significand start rest
  | rest => makeFloat isNegative significand start rest

/-- Reads a fraction from behind its point. Digits that do not fit are dropped. -/
def readFraction (isNegative : Bool) (significand : Nat) (start : Int) : Reader Number
  | [] => .error (.at .valueEnds [])
  | c :: rest =>
    if isDigit c then
      let (digits, behind) := readSignificand significand (c :: rest)
      let places : Int := ((c :: rest).length - behind.length : Nat)
      readOptionalExponent isNegative digits (start - places) (behind.dropWhile isDigit)
    else .error (.at .invalidNumber (c :: rest))

/-- Reads what may follow the integer digits of a number that is too long to be an integer. -/
def readLongTail (isNegative : Bool) (significand : Nat) (start : Int) : Reader Number
  | '.' :: rest => readFraction isNegative significand start rest
  | rest => readOptionalExponent isNegative significand start rest

/-- The integer of a sign and a significand. Zero with a sign, and what is below the range, are
floating-point values. -/
def makeInteger (isNegative : Bool) (significand : Nat) : Reader Number :=
  fun rest =>
    if isNegative then
      if significand = 0 ∨ minInteger.natAbs < significand then makeFloat true significand 0 rest
      else .ok (.negative significand, rest)
    else .ok (.natural significand, rest)

def readTail (isNegative : Bool) (significand : Nat) : Reader Number
  | '.' :: rest => readFraction isNegative significand 0 rest
  | 'e' :: rest => readExponent isNegative significand 0 rest
  | 'E' :: rest => readExponent isNegative significand 0 rest
  | rest => makeInteger isNegative significand rest

def readUnsigned (isNegative : Bool) : Reader Number
  | [] => .error (.before .valueEnds [])
  | '0' :: rest =>
    if (rest.head?.map isDigit).getD false then .error (.at .invalidNumber rest)
    else readTail isNegative 0 rest
  | c :: rest =>
    match Text.digitValue? c with
    | none => .error (.at .invalidNumber (c :: rest))
    | some d =>
      let (significand, behind) := readSignificand d rest
      let more := behind.takeWhile isDigit
      if more = [] then readTail isNegative significand behind
      else readLongTail isNegative significand more.length (behind.dropWhile isDigit)

def readNumber : Reader Number
  | '-' :: rest => readUnsigned true rest
  | rest => readUnsigned false rest

end StreamAdmission.Json
