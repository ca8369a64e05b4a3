import StreamAdmission.Json.Skip

/-!
# Reading typed JSON

Readers for texts, bounded integers, optional values, tables and records. A reader that meets a
value of another kind names what it found and what it wanted; a malformed value is reported as
malformed and not as one of another kind.
-/

namespace StreamAdmission.Json

/-- The failure of a reader that wanted something else than what stands at the front. -/
def mismatch (expected : String) (text : List Char) : Failure :=
  let wrong (found : Found) (rest : List Char) : Failure :=
    .before (.wrongKind found expected) rest
  let word (letters rest : List Char) (found : Found) : Failure :=
    match readWord letters rest with
    | .error failure => failure
    | .ok rest => wrong found rest
  let number (text : List Char) : Failure :=
    match readNumber text with
    | .error failure => failure
    | .ok (value, rest) => wrong (.number value) rest
  match text with
  | [] => .at .valueEnds []
  | 'n' :: rest => word ['u', 'l', 'l'] rest .null
  | 't' :: rest => word ['r', 'u', 'e'] rest (.boolean true)
  | 'f' :: rest => word ['a', 'l', 's', 'e'] rest (.boolean false)
  | '"' :: rest =>
    match readStringRest rest with
    | .error failure => failure
    | .ok (value, rest) => wrong (.string value) rest
  | '[' :: _ => wrong .sequence text
  | '\x7b' :: _ => wrong .map text
  | c :: _ =>
    if c = '-' || isDigit c then number text else .at .expectedValue text

def readString : Reader String := fun text =>
  match skipSpace text with
  | '"' :: rest => readStringRest rest
  | text => .error (mismatch "a string" text)

/-- Accepts a number that was read if it is an integer of the wanted range. -/
def acceptInteger (expected : String) (low high : Int) (number : Number) (rest : List Char) :
    Except Failure (Int × List Char) :=
  let bounded (value : Int) : Except Failure (Int × List Char) :=
    if low ≤ value ∧ value ≤ high then .ok (value, rest)
    else .error (.before (.wrongNumber number expected) rest)
  match number with
  | .natural n => bounded n
  | .negative n => bounded (-n)
  | .floating .. => .error (.before (.wrongKind (.number number) expected) rest)

def readInteger (expected : String) (low high : Int) : Reader Int := fun text =>
  match skipSpace text with
  | c :: rest =>
    if c = '-' || isDigit c then
      match readNumber (c :: rest) with
      | .error failure => .error failure
      | .ok (number, behind) => acceptInteger expected low high number behind
    else .error (mismatch expected (c :: rest))
  | [] => .error (mismatch expected [])

/-- Reads `null` as nothing and any other value as itself. -/
def readOptional {α : Type} (read : Reader α) : Reader (Option α) := fun text =>
  match skipSpace text with
  | 'n' :: rest =>
    match readWord ['u', 'l', 'l'] rest with
    | .error failure => .error failure
    | .ok rest => .ok (none, rest)
  | text =>
    match read text with
    | .error failure => .error failure
    | .ok (value, rest) => .ok (some value, rest)

/-! ### Objects -/

/-- What comes next among items: one more, or the closing bracket. The rest starts behind the
opening quote of a key, or behind the bracket. -/
inductive Ahead where
  | item (rest : List Char)
  | closed (rest : List Char)

/-- Looks for a key that has to come. -/
def keyAhead (missing : Cause) : List Char → Except Failure Ahead
  | '"' :: rest => .ok (.item rest)
  | [] => .error (.at missing [])
  | text => .error (.at .keyNotString text)

def nextKey (first : Bool) (text : List Char) : Except Failure Ahead :=
  match skipSpace text with
  | '\x7d' :: rest => .ok (.closed rest)
  | [] => .error (.at .objectEnds [])
  | c :: rest =>
    if first then keyAhead .objectEnds (c :: rest)
    else if c = ',' then
      match skipSpace rest with
      | '\x7d' :: rest => .error (.at .trailingComma ('\x7d' :: rest))
      | rest => keyAhead .valueEnds rest
    else .error (.at .expectedObjectSeparator (c :: rest))

def readColon (text : List Char) : Except Failure (List Char) :=
  match skipSpace text with
  | ':' :: rest => .ok rest
  | [] => .error (.at .objectEnds [])
  | text => .error (.at .expectedColon text)

/-- Reads the entries of an object in their order; `steps` bounds their number. -/
def readEntries {κ α : Type} (readKey : Reader κ) (readValue : Reader α) :
    Nat → Bool → Reader (List (κ × α))
  | 0, _, text => .error (.at .objectEnds text)
  | steps + 1, first, text =>
    match nextKey first text with
    | .error failure => .error failure
    | .ok (.closed rest) => .ok ([], rest)
    | .ok (.item rest) =>
      match readKey rest with
      | .error failure => .error failure
      | .ok (key, rest) =>
        match readColon rest with
        | .error failure => .error failure
        | .ok rest =>
          match readValue rest with
          | .error failure => .error failure
          | .ok (value, rest) =>
            match readEntries readKey readValue steps false rest with
            | .error failure => .error failure
            | .ok (entries, rest) => .ok ((key, value) :: entries, rest)

/-- Reads an object whose keys are all of one kind, and so are its values. -/
def readMap {κ α : Type} (readKey : Reader κ) (readValue : Reader α) :
    Reader (List (κ × α)) := fun text =>
  match skipSpace text with
  | '\x7b' :: rest => readEntries readKey readValue (rest.length + 1) true rest
  | text => .error (mismatch "a map" text)

/-- Reads a key that holds a 64-bit integer, from behind its opening quote. -/
def readIntegerKey : Reader Int
  | [] => .error (.before .expectedNumericKey [])
  | c :: rest =>
    if c = '-' || isDigit c then
      match readInteger "i64" minInteger maxInteger (c :: rest) with
      | .error failure => .error failure
      | .ok (key, '"' :: behind) => .ok (key, behind)
      | .ok (_, behind) => .error (.at .expectedQuote behind)
    else .error (.before .expectedNumericKey (c :: rest))

/-! ### Records -/

/-- A member of a record: its name, whether it has to be given, and how its value is entered. -/
structure Member (σ : Type) where
  name : String
  required : Bool
  read : σ → Reader σ

/-- A record with named members in the order of its declaration. -/
structure Record (σ : Type) where
  name : String
  members : List (Member σ)

namespace Record

variable {σ : Type}

/-- How failures call the record. -/
def title (record : Record σ) : String := "struct " ++ record.name

/-- How failures call the record as a sequence of values. -/
def titleWithLength (record : Record σ) : String :=
  record.title ++ " with " ++ String.ofList (Text.decimal record.members.length) ++ " elements"

def member? (record : Record σ) (name : String) : Option (Member σ) :=
  record.members.find? (·.name = name)

/-- The first required member whose name is not among those given. -/
def missing? (record : Record σ) (given : List String) : Option (Member σ) :=
  record.members.find? fun m => m.required && !given.contains m.name

/-- What is unread once an object is left in the middle: its closing brace counts as read. -/
def behindObject (text : List Char) : List Char :=
  match skipSpace text with
  | '\x7d' :: rest => rest
  | rest => rest

/-- Reads the members of an object in any order. A name given twice is refused, and so is a
required one left out; the values of unknown names are passed over. -/
def readMembers (record : Record σ) : Nat → Bool → List String → σ → Reader σ
  | 0, _, _, _, text => .error (.at .objectEnds text)
  | steps + 1, first, given, value, text =>
    match nextKey first text with
    | .error failure => .error failure
    | .ok (.closed rest) =>
      match record.missing? given with
      | some m => .error (.before (.missingField m.name) rest)
      | none => .ok (value, rest)
    | .ok (.item rest) =>
      match readStringRest rest with
      | .error failure => .error failure
      | .ok (name, rest) =>
        match record.member? name with
        | some m =>
          if given.contains name then
            .error (.before (.duplicateField name) (behindObject rest))
          else
            match readColon rest with
            | .error failure => .error failure
            | .ok rest =>
              match m.read value rest with
              | .error failure => .error failure
              | .ok (value, rest) => readMembers record steps false (name :: given) value rest
        | none =>
          match readColon rest with
          | .error failure => .error failure
          | .ok rest =>
            match skipValue rest with
            | .error failure => .error failure
            | .ok rest => readMembers record steps false given value rest

/-- Looks for the next value of a list. -/
def nextValue (first : Bool) (text : List Char) : Except Failure Ahead :=
  match skipSpace text with
  | ']' :: rest => .ok (.closed rest)
  | [] => .error (.at .listEnds [])
  | c :: rest =>
    if first then .ok (.item (c :: rest))
    else if c = ',' then
      match skipSpace rest with
      | [] => .error (.at .valueEnds [])
      | ']' :: rest => .error (.at .trailingComma (']' :: rest))
      | rest => .ok (.item rest)
    else .error (.at .expectedListSeparator (c :: rest))

def readListEnd (text : List Char) : Except Failure (List Char) :=
  match skipSpace text with
  | ']' :: rest => .ok rest
  | [] => .error (.at .listEnds [])
  | ',' :: rest =>
    match skipSpace rest with
    | ']' :: rest => .error (.at .trailingComma (']' :: rest))
    | rest => .error (.at .trailingCharacters rest)
  | text => .error (.at .trailingCharacters text)

/-- Reads the members of a list in the order of their declaration, `count` of them being read
already. Those at the end may be left out unless they are required. -/
def readElements (record : Record σ) : Nat → List (Member σ) → σ → Reader σ
  | _, [], value, text =>
    match readListEnd text with
    | .error failure => .error failure
    | .ok rest => .ok (value, rest)
  | count, m :: members, value, text =>
    match nextValue (count = 0) text with
    | .error failure => .error failure
    | .ok (.closed rest) =>
      if (m :: members).any (·.required) then
        .error (.before (.wrongLength count record.titleWithLength) rest)
      else .ok (value, rest)
    | .ok (.item rest) =>
      match m.read value rest with
      | .error failure => .error failure
      | .ok (value, rest) => readElements record (count + 1) members value rest

/-- Reads a record from an object or from a list, starting from the value of one that has nothing
given. -/
def read (record : Record σ) (start : σ) : Reader σ := fun text =>
  match skipSpace text with
  | '\x7b' :: rest => record.readMembers (rest.length + 1) true [] start rest
  | '[' :: rest => record.readElements 0 record.members start rest
  | text => .error (mismatch record.title text)

end Record

/-! ### Whole texts -/

/-- Reads a text that holds one value and nothing else but white space. -/
def decode {α : Type} (read : Reader α) (text : String) : Except Error α :=
  match read text.toList with
  | .error failure => .error (failure.locatedIn text.toList)
  | .ok (value, rest) =>
    match skipSpace rest with
    | [] => .ok value
    | rest => .error ((Failure.at .trailingCharacters rest).locatedIn text.toList)

end StreamAdmission.Json
