import StreamAdmission.Json.Lexeme

/-!
# Skipped JSON values

Passing over a value that nobody reads. It must be well formed, but its numbers may be out of range
and the escapes in its strings need not pair up. Open brackets are kept in a list, so a value may be
nested to any depth.
-/

namespace StreamAdmission.Json

def skipString : List Char → Except Failure (List Char)
  | [] => .error (.before .stringEnds [])
  | '"' :: rest => .ok rest
  | ['\\'] => .error (.before .stringEnds [])
  | '\\' :: 'u' :: a :: b :: c :: d :: rest =>
    if (hexQuad? a b c d).isSome then skipString rest
    else .error (hexFailure (a :: b :: c :: d :: rest))
  | '\\' :: c :: rest =>
    if c = 'u' then .error (hexFailure rest)
    else if (simpleEscape? c).isSome then skipString rest
    else .error (.at .invalidEscape (c :: rest))
  | c :: rest =>
    if c < ' ' then .error (.before .controlCharacter (c :: rest)) else skipString rest

def skipExponentDigits : List Char → Except Failure (List Char)
  | [] => .error (.before .invalidNumber [])
  | c :: rest =>
    if isDigit c then .ok (rest.dropWhile isDigit) else .error (.at .invalidNumber (c :: rest))

def skipExponent : List Char → Except Failure (List Char)
  | '+' :: rest => skipExponentDigits rest
  | '-' :: rest => skipExponentDigits rest
  | rest => skipExponentDigits rest

def skipOptionalExponent : List Char → Except Failure (List Char)
  | 'e' :: rest => skipExponent rest
  | 'E' :: rest => skipExponent rest
  | rest => .ok rest

def skipNumberTail : List Char → Except Failure (List Char)
  | '.' :: c :: rest =>
    if isDigit c then skipOptionalExponent (rest.dropWhile isDigit)
    else .error (.at .invalidNumber (c :: rest))
  | ['.'] => .error (.at .invalidNumber [])
  | rest => skipOptionalExponent rest

def skipNumber : List Char → Except Failure (List Char)
  | [] => .error (.before .invalidNumber [])
  | '0' :: rest =>
    if (rest.head?.map isDigit).getD false then .error (.at .invalidNumber rest)
    else skipNumberTail rest
  | c :: rest =>
    if isDigit c then skipNumberTail (rest.dropWhile isDigit)
    else .error (.at .invalidNumber (c :: rest))

/-- Passes over a value without brackets. -/
def skipScalar : List Char → Except Failure (List Char)
  | [] => .error (.at .valueEnds [])
  | 'n' :: rest => readWord ['u', 'l', 'l'] rest
  | 't' :: rest => readWord ['r', 'u', 'e'] rest
  | 'f' :: rest => readWord ['a', 'l', 's', 'e'] rest
  | '-' :: rest => skipNumber rest
  | '"' :: rest => skipString rest
  | c :: rest =>
    if isDigit c then skipNumber (c :: rest) else .error (.at .expectedValue (c :: rest))

def skipKey (text : List Char) : Except Failure (List Char) :=
  match skipSpace text with
  | [] => .error (.at .objectEnds [])
  | '"' :: rest =>
    match skipString rest with
    | .error failure => .error failure
    | .ok rest =>
      match skipSpace rest with
      | [] => .error (.at .objectEnds [])
      | ':' :: rest => .ok rest
      | rest => .error (.at .expectedColon rest)
  | rest => .error (.at .keyNotString rest)

theorem length_dropWhile_le (p : Char → Bool) (text : List Char) :
    (text.dropWhile p).length ≤ text.length :=
  (List.dropWhile_sublist p).length_le

theorem length_skipSpace_le (text : List Char) : (skipSpace text).length ≤ text.length :=
  length_dropWhile_le isSpace text

theorem skipString_length {text rest : List Char} (h : skipString text = .ok rest) :
    rest.length < text.length := by
  fun_induction skipString text <;> simp_all <;> omega

theorem skipExponentDigits_length {text rest : List Char}
    (h : skipExponentDigits text = .ok rest) : rest.length < text.length := by
  unfold skipExponentDigits at h
  split at h
  · simp at h
  · rename_i c r
    have := length_dropWhile_le isDigit r
    split at h <;> simp at h
    subst h
    simp
    omega

theorem skipExponent_length {text rest : List Char} (h : skipExponent text = .ok rest) :
    rest.length < text.length := by
  unfold skipExponent at h
  split at h <;> have := skipExponentDigits_length h <;> grind

theorem skipOptionalExponent_length {text rest : List Char}
    (h : skipOptionalExponent text = .ok rest) : rest.length ≤ text.length := by
  unfold skipOptionalExponent at h
  split at h
  · have := skipExponent_length h; grind
  · have := skipExponent_length h; grind
  · simp_all

theorem skipNumberTail_length {text rest : List Char} (h : skipNumberTail text = .ok rest) :
    rest.length ≤ text.length := by
  unfold skipNumberTail at h
  split at h
  · rename_i c r
    split at h
    · have := skipOptionalExponent_length h
      have := length_dropWhile_le isDigit r
      simp
      omega
    · simp at h
  · simp at h
  · exact skipOptionalExponent_length h

theorem skipNumber_length {text rest : List Char} (h : skipNumber text = .ok rest) :
    rest.length < text.length := by
  unfold skipNumber at h
  split at h
  · simp at h
  · split at h
    · simp at h
    · have := skipNumberTail_length h
      simp
      omega
  · rename_i c r _
    split at h
    · have := skipNumberTail_length h
      have := length_dropWhile_le isDigit r
      simp
      omega
    · simp at h

theorem readWord_length {letters text rest : List Char} (h : readWord letters text = .ok rest) :
    rest.length ≤ text.length := by
  fun_induction readWord letters text <;> simp_all
  omega

theorem skipScalar_length {text rest : List Char} (h : skipScalar text = .ok rest) :
    rest.length < text.length := by
  unfold skipScalar at h
  split at h
  · simp at h
  · have := readWord_length h; simp; omega
  · have := readWord_length h; simp; omega
  · have := readWord_length h; simp; omega
  · have := skipNumber_length h; simp; omega
  · have := skipString_length h; simp; omega
  · split at h
    · exact skipNumber_length h
    · simp at h

theorem skipKey_length {text rest : List Char} (h : skipKey text = .ok rest) :
    rest.length < text.length := by
  unfold skipKey at h
  have start := length_skipSpace_le text
  split at h
  · simp at h
  · rename_i r hs
    rw [hs] at start
    split at h
    · simp at h
    · rename_i r' hk
      have key := skipString_length hk
      have colon := length_skipSpace_le r'
      split at h
      · simp at h
      · rename_i hc
        rw [hc] at colon
        simp at h start colon
        subst h
        omega
      · simp at h
  · simp at h

inductive Bracket where
  | list
  | object
  deriving DecidableEq, Repr

def Bracket.closing : Bracket → Char
  | .list => ']'
  | .object => '\x7d'

def Bracket.ends : Bracket → Cause
  | .list => .listEnds
  | .object => .objectEnds

def Bracket.expectedSeparator : Bracket → Cause
  | .list => .expectedListSeparator
  | .object => .expectedObjectSeparator

def Bracket.ofOpening? : Char → Option Bracket
  | '[' => some .list
  | '\x7b' => some .object
  | _ => none

/-- Passes over the key of an item, which only objects have. -/
def skipItemKey (bracket : Bracket) (text : List Char) : Except Failure (List Char) :=
  match bracket with
  | .list => .ok text
  | .object => skipKey text

theorem skipItemKey_length {bracket : Bracket} {text rest : List Char}
    (h : skipItemKey bracket text = .ok rest) : rest.length ≤ text.length := by
  cases bracket with
  | list => simp_all [skipItemKey]
  | object => exact Nat.le_of_lt (skipKey_length h)

theorem length_lt_of_skipSpace {text rest : List Char} {c : Char}
    (h : skipSpace text = c :: rest) : rest.length < text.length := by
  have := length_skipSpace_le text
  simp [h] at this
  omega

theorem skipScalar_length_lt {text rest behind : List Char} {c : Char}
    (hs : skipSpace text = c :: rest) (h : skipScalar (c :: rest) = .ok behind) :
    behind.length < text.length :=
  Nat.lt_of_lt_of_le (hs ▸ skipScalar_length h) (hs ▸ length_skipSpace_le text)

/-- What is left behind the key of the first item is shorter than the text from the bracket on. -/
theorem skipItemKey_length_lt {bracket : Bracket} {text rest inner behind : List Char} {c d : Char}
    (hs : skipSpace text = c :: rest) (hi : skipSpace rest = d :: inner)
    (h : skipItemKey bracket (d :: inner) = .ok behind) : behind.length < text.length :=
  Nat.lt_of_le_of_lt (Nat.le_trans (skipItemKey_length h) (hi ▸ length_skipSpace_le rest))
    (length_lt_of_skipSpace hs)

mutual

/-- Passes over a value inside some open brackets and over all that is left of them. -/
def skipValueIn (outer : List Bracket) (text : List Char) : Except Failure (List Char) :=
  match hs : skipSpace text with
  | [] => .error (.at .valueEnds [])
  | c :: rest =>
    match Bracket.ofOpening? c with
    | none =>
      match h : skipScalar (c :: rest) with
      | .error failure => .error failure
      | .ok behind =>
        have := skipScalar_length_lt hs h
        skipRestOf outer behind
    | some bracket =>
      match hi : skipSpace rest with
      | [] => .error (.at bracket.ends [])
      | d :: inner =>
        have := Nat.lt_trans (length_lt_of_skipSpace hi) (length_lt_of_skipSpace hs)
        if d = bracket.closing then skipRestOf outer inner
        else
          match h : skipItemKey bracket (d :: inner) with
          | .error failure => .error failure
          | .ok behind =>
            have := skipItemKey_length_lt hs hi h
            skipValueIn (bracket :: outer) behind
termination_by text.length

/-- Passes over what is left of some open brackets behind a value. -/
def skipRestOf (outer : List Bracket) (text : List Char) : Except Failure (List Char) :=
  match outer with
  | [] => .ok text
  | bracket :: outer =>
    match hs : skipSpace text with
    | [] => .error (.at bracket.ends [])
    | c :: rest =>
      have := length_lt_of_skipSpace hs
      if c = bracket.closing then skipRestOf outer rest
      else if c = ',' then
        match h : skipItemKey bracket rest with
        | .error failure => .error failure
        | .ok behind =>
          have := Nat.lt_of_le_of_lt (skipItemKey_length h) (length_lt_of_skipSpace hs)
          skipValueIn (bracket :: outer) behind
      else .error (.at bracket.expectedSeparator (c :: rest))
termination_by text.length

end

def skipValue (text : List Char) : Except Failure (List Char) := skipValueIn [] text

end StreamAdmission.Json
