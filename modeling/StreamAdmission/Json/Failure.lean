import StreamAdmission.Decimal.Shortest
import StreamAdmission.Text.Escaped

/-!
# JSON failures

What can be wrong with a JSON text, how it is worded, and where in the text it is. A failure keeps
the text that was unread when it arose; its line and column follow from the whole text.
-/

namespace StreamAdmission.Json

/-- A number as it is written: a natural number, a negative integer, or a floating-point value. -/
inductive Number where
  | natural (n : Nat)
  | negative (n : Nat)
  | floating (isNegative : Bool) (magnitude : Decimal.Binary64)
  deriving DecidableEq, Repr

/-- The plain layout of a decimal, used from `10 ^ -5` up to `10 ^ 16`. -/
def plainDecimal (d : Decimal.Digits) : List Char :=
  if d.point ≤ 0 then '0' :: '.' :: (List.replicate (-d.point).toNat '0' ++ d.digits)
  else if d.digits.length ≤ d.point.toNat then
    d.digits ++ List.replicate (d.point.toNat - d.digits.length) '0' ++ ['.', '0']
  else d.digits.take d.point.toNat ++ '.' :: d.digits.drop d.point.toNat

/-- The layout with one digit before the point and a signed exponent. -/
def exponentDecimal (d : Decimal.Digits) : List Char :=
  let mantissa := match d.digits with
    | [] => []
    | [digit] => [digit]
    | digit :: rest => digit :: '.' :: rest
  let exponent := d.point - 1
  mantissa ++ 'e' :: (if exponent < 0 then '-' else '+') :: Text.decimal exponent.natAbs

/-- A floating-point value in its shortest decimal. -/
def floatText (isNegative : Bool) (x : Decimal.Binary64) : List Char :=
  let magnitude :=
    if x.isZero then ['0', '.', '0']
    else
      let d := x.shortest
      if -5 ≤ d.point - 1 ∧ d.point - 1 < 16 then plainDecimal d else exponentDecimal d
  if isNegative then '-' :: magnitude else magnitude

def Number.describe : Number → String
  | .natural n => "integer `" ++ String.ofList (Text.decimal n) ++ "`"
  | .negative n => "integer `-" ++ String.ofList (Text.decimal n) ++ "`"
  | .floating isNegative x =>
    "floating point `" ++ String.ofList (floatText isNegative x) ++ "`"

/-- A value of another kind than the wanted one. -/
inductive Found where
  | null
  | boolean (value : Bool)
  | number (value : Number)
  | string (value : String)
  | sequence
  | map
  deriving DecidableEq, Repr

def Found.describe : Found → String
  | .null => "null"
  | .boolean value => "boolean `" ++ (if value then "true" else "false") ++ "`"
  | .number value => value.describe
  | .string value => "string " ++ Text.escaped value
  | .sequence => "sequence"
  | .map => "map"

inductive Cause where
  | valueEnds
  | stringEnds
  | listEnds
  | objectEnds
  | expectedWord
  | expectedValue
  | expectedColon
  | expectedListSeparator
  | expectedObjectSeparator
  | expectedNumericKey
  | expectedQuote
  | keyNotString
  | trailingComma
  | trailingCharacters
  | invalidNumber
  | numberOutOfRange
  | controlCharacter
  | invalidEscape
  | loneSurrogate
  | surrogateEnds
  | wrongKind (found : Found) (expected : String)
  | wrongNumber (found : Number) (expected : String)
  | duplicateField (name : String)
  | missingField (name : String)
  | wrongLength (found : Nat) (expected : String)
  deriving DecidableEq, Repr

def Cause.message : Cause → String
  | .valueEnds => "EOF while parsing a value"
  | .stringEnds => "EOF while parsing a string"
  | .listEnds => "EOF while parsing a list"
  | .objectEnds => "EOF while parsing an object"
  | .expectedWord => "expected ident"
  | .expectedValue => "expected value"
  | .expectedColon => "expected `:`"
  | .expectedListSeparator => "expected `,` or `]`"
  | .expectedObjectSeparator => "expected `,` or `\x7d`"
  | .expectedNumericKey => "invalid value: expected key to be a number in quotes"
  | .expectedQuote => "expected `\"`"
  | .keyNotString => "key must be a string"
  | .trailingComma => "trailing comma"
  | .trailingCharacters => "trailing characters"
  | .invalidNumber => "invalid number"
  | .numberOutOfRange => "number out of range"
  | .controlCharacter => "control character (\\u0000-\\u001F) found while parsing a string"
  | .invalidEscape => "invalid escape"
  | .loneSurrogate => "lone leading surrogate in hex escape"
  | .surrogateEnds => "unexpected end of hex escape"
  | .wrongKind found expected => "invalid type: " ++ found.describe ++ ", expected " ++ expected
  | .wrongNumber found expected => "invalid value: " ++ found.describe ++ ", expected " ++ expected
  | .duplicateField name => "duplicate field `" ++ name ++ "`"
  | .missingField name => "missing field `" ++ name ++ "`"
  | .wrongLength found expected =>
    "invalid length " ++ String.ofList (Text.decimal found) ++ ", expected " ++ expected

/-- A cause with the text that was unread and the number of its bytes that count as read. -/
structure Failure where
  cause : Cause
  rest : List Char
  ahead : Nat
  deriving DecidableEq, Repr

/-- A failure right before the unread text. -/
def Failure.before (cause : Cause) (rest : List Char) : Failure := ⟨cause, rest, 0⟩

/-- A failure at the next byte of the unread text. -/
def Failure.at (cause : Cause) (rest : List Char) : Failure := ⟨cause, rest, 1⟩

def byteSize : List Char → Nat
  | [] => 0
  | c :: rest => c.utf8Size + byteSize rest

/-- The line and the column after a number of bytes, counted on from a given line and column. -/
def locate (line column : Nat) : Nat → List Char → Nat × Nat
  | _, [] => (line, column)
  | bytes, c :: rest =>
    if bytes < c.utf8Size then (line, column + bytes)
    else if c = '\n' then locate (line + 1) 0 (bytes - 1) rest
    else locate line (column + c.utf8Size) (bytes - c.utf8Size) rest

/-- A failure with its place in the text. -/
structure Error where
  cause : Cause
  line : Nat
  column : Nat
  deriving DecidableEq, Repr

def Failure.locatedIn (failure : Failure) (text : List Char) : Error :=
  let bytes := byteSize text - byteSize failure.rest + failure.ahead
  let (line, column) := locate 1 0 bytes text
  ⟨failure.cause, line, column⟩

def Error.message (e : Error) : String :=
  e.cause.message ++ " at line " ++ String.ofList (Text.decimal e.line) ++ " column " ++
    String.ofList (Text.decimal e.column)

/-- Reads a value from the front of a text and leaves the rest. -/
abbrev Reader (α : Type) := List Char → Except Failure (α × List Char)

end StreamAdmission.Json
