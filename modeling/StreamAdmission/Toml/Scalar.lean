import StreamAdmission.Decimal.Binary64
import StreamAdmission.Toml.Text

/-!
# TOML numbers and times

The values that are written without quotes: numbers, truth values, and dates and times. Such a value
ends at white space, a comment, or a bracket or comma of what is around it.
-/

namespace StreamAdmission.Toml

/-- A value that is not a string and holds no other values. -/
inductive Scalar where
  | integer (value : Int)
  | float
  | boolean (value : Bool)
  | dateTime (text : String)
  deriving DecidableEq, Repr

def isTokenChar (c : Char) : Bool :=
  !(isSpace c || c = '\n' || c = '\r' || c = '#' || c = ',' || c = ']' || c = '\x7d')

/-! ### Numbers -/

/-- The digits of a number in which single underscores may stand between digits. -/
def digitsOf? (isDigit : Char → Bool) : List Char → Option (List Char)
  | [] => none
  | [c] => if isDigit c then some [c] else none
  | c :: '_' :: rest => if isDigit c then (digitsOf? isDigit rest).map (c :: ·) else none
  | c :: rest => if isDigit c then (digitsOf? isDigit rest).map (c :: ·) else none

def valueOf (base : Nat) (digits : List Char) : Nat :=
  digits.foldl (fun value d => value * base + (Json.hexValue? d).getD 0) 0

/-- The digits of a decimal number that starts with a zero only if it is zero. -/
def decimalDigits? (text : List Char) : Option (List Char) := do
  let digits ← digitsOf? Json.isDigit text
  match text with
  | '0' :: _ :: _ => none
  | _ => some digits

/-- The sign in front, and what is behind it. -/
def splitSign : List Char → Bool × List Char
  | '-' :: rest => (true, rest)
  | '+' :: rest => (false, rest)
  | text => (false, text)

def bounded? (value : Int) : Option Int :=
  if Json.minInteger ≤ value ∧ value ≤ Json.maxInteger then some value else none

def isOctal (c : Char) : Bool := '0' ≤ c && c ≤ '7'

def isBinary (c : Char) : Bool := c = '0' || c = '1'

/-- The integer written by a token, in decimal or with a mark for its base. -/
def integerOf? (token : List Char) : Option Int :=
  match token with
  | '0' :: 'x' :: rest => do
    bounded? (valueOf 16 (← digitsOf? (fun c => (Json.hexValue? c).isSome) rest))
  | '0' :: 'o' :: rest => do bounded? (valueOf 8 (← digitsOf? isOctal rest))
  | '0' :: 'b' :: rest => do bounded? (valueOf 2 (← digitsOf? isBinary rest))
  | _ => do
    let (isNegative, rest) := splitSign token
    let value : Int := valueOf 10 (← decimalDigits? rest)
    bounded? (if isNegative then -value else value)

/-- The exponent written behind its letter. -/
def exponentOf? (text : List Char) : Option Int := do
  let (isNegative, rest) := splitSign text
  let value : Int := valueOf 10 (← digitsOf? Json.isDigit rest)
  return if isNegative then -value else value

def isExponentMark (c : Char) : Bool := c = 'e' || c = 'E'

/-- The significant digits of a float, and the exponent of ten that goes with them as an integer. -/
def floatParts? (text : List Char) : Option (List Char × Int) := do
  let front := text.takeWhile (!isExponentMark ·)
  let exponent ← match text.dropWhile (!isExponentMark ·) with
    | [] => some 0
    | _ :: rest => exponentOf? rest
  let whole := front.takeWhile (· ≠ '.')
  let wholeDigits ← decimalDigits? whole
  match front.dropWhile (· ≠ '.') with
  | [] => if front.length = text.length then none else return (wholeDigits, exponent)
  | _ :: fraction => do
    let fractionDigits ← digitsOf? Json.isDigit fraction
    return (wholeDigits ++ fractionDigits, exponent - fractionDigits.length)

def isFinite (digits : List Char) (exponent : Int) : Bool :=
  let significant := digits.dropWhile (· = '0')
  let size : Int := significant.length + exponent
  if significant = [] ∨ size < -400 then true
  else if 400 < size then false
  else
    let value := valueOf 10 significant
    (Decimal.Binary64.round (value * Decimal.tenTo exponent.toNat)
      (Decimal.tenTo (-exponent).toNat)).isSome

/-- Whether a token is a float. One beyond the range is refused if it is positive. -/
def isFloat (token : List Char) : Bool :=
  let (isNegative, rest) := splitSign token
  rest = ['i', 'n', 'f'] || rest = ['n', 'a', 'n'] ||
    match floatParts? rest with
    | some (digits, exponent) => isNegative || isFinite digits exponent
    | none => false

/-! ### Dates and times -/

def twoDigits? (a b : Char) : Option Nat := do
  return (← Text.digitValue? a) * 10 + (← Text.digitValue? b)

def isLeapYear (year : Nat) : Bool := year % 4 = 0 && (year % 100 ≠ 0 || year % 400 = 0)

def daysOf (year month : Nat) : Nat :=
  if month = 2 then if isLeapYear year then 29 else 28
  else if month = 4 || month = 6 || month = 9 || month = 11 then 30
  else 31

def isDate : List Char → Bool
  | [a, b, c, d, '-', e, f, '-', g, h] =>
    match twoDigits? a b, twoDigits? c d, twoDigits? e f, twoDigits? g h with
    | some century, some year, some month, some day =>
      1 ≤ month && month ≤ 12 && 1 ≤ day && day ≤ daysOf (century * 100 + year) month
    | _, _, _, _ => false
  | _ => false

def offsetOf? : List Char → Option (List Char)
  | ['Z'] => some ['Z']
  | ['z'] => some ['Z']
  | [sign, a, b, ':', c, d] => do
    let hour ← twoDigits? a b
    let minute ← twoDigits? c d
    if (sign = '+' || sign = '-') && hour ≤ 23 && minute ≤ 59 then
      some (if hour = 0 && minute = 0 then ['+', '0', '0', ':', '0', '0']
        else [sign, a, b, ':', c, d])
    else none
  | _ => none

/-- The normal text of a fraction of a second: nine places at most, and no zeros at its end. -/
def fractionText (digits : List Char) : List Char :=
  match ((digits.take 9).reverse.dropWhile (· = '0')).reverse with
  | [] => []
  | significant => '.' :: significant

/-- The normal text of a time of day, and what stands behind it. -/
def timeOf? : List Char → Option (List Char × List Char)
  | a :: b :: ':' :: c :: d :: ':' :: e :: f :: rest => do
    let hour ← twoDigits? a b
    let minute ← twoDigits? c d
    let second ← twoDigits? e f
    if hour ≤ 23 && minute ≤ 59 && second ≤ 60 then
      let time := [a, b, ':', c, d, ':', e, f]
      match rest with
      | '.' :: fraction =>
        match fraction.takeWhile Json.isDigit with
        | [] => none
        | digits => some (time ++ fractionText digits, fraction.dropWhile Json.isDigit)
      | _ => some (time, rest)
    else none
  | _ => none

/-- The normal text of a time of day, perhaps with an offset. -/
def zonedTimeOf? (text : List Char) : Option (List Char) := do
  let (time, rest) ← timeOf? text
  match rest with
  | [] => some time
  | _ => return time ++ (← offsetOf? rest)

/-- The normal text of a date, a time of day, or both. -/
def dateTimeOf? (token : List Char) : Option (List Char) :=
  let date := token.take 10
  if isDate date then
    match token.drop 10 with
    | [] => some date
    | mark :: rest =>
      if mark = 'T' || mark = 't' || mark = ' ' then
        (zonedTimeOf? rest).map (date ++ 'T' :: ·)
      else none
  else
    match timeOf? token with
    | some (time, []) => some time
    | _ => none

/-! ### Tokens -/

/-- Takes a token off the text. A date and a time of day may have a space between them. -/
def splitToken (text : List Char) : List Char × List Char :=
  let token := text.takeWhile isTokenChar
  match text.dropWhile isTokenChar with
  | ' ' :: c :: rest =>
    if isDate token && Json.isDigit c then
      (token ++ ' ' :: (c :: rest).takeWhile isTokenChar, (c :: rest).dropWhile isTokenChar)
    else (token, ' ' :: c :: rest)
  | rest => (token, rest)

def scalarOf? (token : List Char) : Option Scalar :=
  if token = ['t', 'r', 'u', 'e'] then some (.boolean true)
  else if token = ['f', 'a', 'l', 's', 'e'] then some (.boolean false)
  else
    match integerOf? token with
    | some value => some (.integer value)
    | none =>
      if isFloat token then some .float
      else (dateTimeOf? token).map fun text => .dateTime (String.ofList text)

def readScalar : Reader Scalar := fun text => do
  let (token, rest) := splitToken text
  return (← scalarOf? token, rest)

end StreamAdmission.Toml
