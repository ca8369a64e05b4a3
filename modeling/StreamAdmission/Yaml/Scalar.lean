import StreamAdmission.Json.Lexeme
import StreamAdmission.Yaml.Text

/-!
# YAML scalars

The texts of plain, quoted and block scalars. Line breaks inside plain and quoted scalars are
folded: one break becomes a space, and of several the first is dropped. Block scalars keep their
lines or fold them, and keep, cut or strip the breaks at their end.
-/

namespace StreamAdmission.Yaml

/-- White space between two parts of a scalar: blanks, or a first line break, if that counts, and
more of them. Both lists have the last character first. -/
inductive Gap where
  | none
  | blanks (chars : List Char)
  | lines (first : Option Char) (more : List Char)
  deriving DecidableEq, Repr

namespace Gap

/-- One more blank; those at the start of a line do not count. -/
def addBlank (c : Char) : Gap → Gap
  | none => blanks [c]
  | blanks chars => blanks (c :: chars)
  | lines first more => lines first more

/-- One more line break; blanks before the first do not count. -/
def addBreak (c : Char) : Gap → Gap
  | none => lines (some (breakChar c)) []
  | blanks _ => lines (some (breakChar c)) []
  | lines first more => lines first (breakChar c :: more)

def isLines : Gap → Bool
  | lines .. => true
  | _ => false

/-- The gap as it stands in the scalar, folded, in front of what was read before; the last character
comes first. -/
def joinTo (before : List Char) : Gap → List Char
  | none => before
  | blanks chars => chars ++ before
  | lines (some '\n') [] => ' ' :: before
  | lines (some '\n') more => more ++ before
  | lines first more => more ++ first.toList ++ before

end Gap

/-! ### Plain scalars -/

def isFlowIndicator (c : Char) : Bool :=
  c = ',' || c = '[' || c = ']' || c = '\x7b' || c = '\x7d'

/-- Whether the text starts with what ends a plain scalar in front of it. -/
def endsPlain (inFlow : Bool) : List Char → Bool
  | [] => true
  | c :: rest => (c = ':' && atGap rest) || (inFlow && isFlowIndicator c)

/-- Whether a colon is misplaced inside brackets: right before a character of their structure. -/
def misplacedColon (inFlow : Bool) : List Char → Bool
  | ':' :: c :: _ => inFlow && (isFlowIndicator c || c = '?')
  | _ => false

/-- Whether a plain scalar ends at the text behind a gap. -/
def endsPlainAfterGap (inFlow : Bool) (indent column : Nat) (text : List Char) : Bool :=
  (!inFlow && column < indent) || (column = 0 && atDocumentMark text) || text.head? = some '#'

/-- A scalar that was read: its characters, whether line breaks follow it, and the rest. -/
structure PlainEnd where
  chars : List Char
  endsLine : Bool
  rest : List Char

/-- Reads a plain scalar that has to be indented by `indent` on its later lines. The characters
before come last first, and `column` is the place in the line. -/
def readPlainFrom (inFlow : Bool) (indent : Nat) :
    List Char → Gap → Nat → List Char → Option PlainEnd
  | before, gap, _, [] => some ⟨before.reverse, gap.isLines, []⟩
  | before, gap, _, '\r' :: '\n' :: rest =>
    readPlainFrom inFlow indent before (gap.addBreak '\n') 0 rest
  | before, gap, column, c :: rest =>
    if isBreak c then readPlainFrom inFlow indent before (gap.addBreak c) 0 rest
    else if isBlank c then
      if gap.isLines && c = '\t' && column < indent then none
      else readPlainFrom inFlow indent before (gap.addBlank c) (column + 1) rest
    else if gap ≠ .none && endsPlainAfterGap inFlow indent column (c :: rest) then
      some ⟨before.reverse, gap.isLines, c :: rest⟩
    else if misplacedColon inFlow (c :: rest) then none
    else if endsPlain inFlow (c :: rest) then some ⟨before.reverse, gap.isLines, c :: rest⟩
    else readPlainFrom inFlow indent (c :: gap.joinTo before) .none (column + 1) rest

def readPlain (inFlow : Bool) (indent column : Nat) (text : List Char) : Option PlainEnd :=
  readPlainFrom inFlow indent [] .none column text

/-! ### Quoted scalars -/

/-- The value of hexadecimal digits of a given number. -/
def readHex : Nat → Nat → List Char → Option (Nat × List Char)
  | 0, value, rest => some (value, rest)
  | _ + 1, _, [] => none
  | digits + 1, value, c :: rest =>
    match Json.hexValue? c with
    | some d => readHex digits (value * 16 + d) rest
    | none => none

def simpleEscape? : Char → Option Char
  | '0' => some '\x00'
  | 'a' => some '\x07'
  | 'b' => some '\x08'
  | 't' => some '\t'
  | '\t' => some '\t'
  | 'n' => some '\n'
  | 'v' => some '\x0b'
  | 'f' => some '\x0c'
  | 'r' => some '\r'
  | 'e' => some '\x1b'
  | ' ' => some ' '
  | '"' => some '"'
  | '/' => some '/'
  | '\\' => some '\\'
  | 'N' => some '\x85'
  | '_' => some '\xa0'
  | 'L' => some '\u2028'
  | 'P' => some '\u2029'
  | _ => none

/-- The number of digits of an escape with hexadecimal digits. -/
def hexEscape? : Char → Option Nat
  | 'x' => some 2
  | 'u' => some 4
  | 'U' => some 8
  | _ => none

def readEscape : List Char → Option (Char × List Char)
  | [] => none
  | c :: rest =>
    match hexEscape? c with
    | some digits =>
      match readHex digits 0 rest with
      | some (value, rest) => if value.isValidChar then some (Char.ofNat value, rest) else none
      | none => none
    | none => (simpleEscape? c).map (·, rest)

theorem readHex_length {digits value result : Nat} {text rest : List Char}
    (h : readHex digits value text = some (result, rest)) : rest.length ≤ text.length := by
  fun_induction readHex digits value text <;> simp_all
  omega

theorem readEscape_length {text rest : List Char} {c : Char}
    (h : readEscape text = some (c, rest)) : rest.length < text.length := by
  unfold readEscape at h
  split at h
  · simp at h
  · split at h
    · split at h
      · rename_i hx
        have := readHex_length hx
        split at h <;> simp at h
        obtain ⟨rfl, rfl⟩ := h
        simp
        omega
      · simp at h
    · rw [Option.map_eq_some_iff] at h
      obtain ⟨_, _, h⟩ := h
      simp at h
      obtain ⟨rfl, rfl⟩ := h
      simp

/-- Reads a scalar between double quotes from behind the opening one. The characters before come
last first, and `newLine` tells whether the text starts a line. -/
def readDouble (before : List Char) (gap : Gap) (newLine : Bool) (text : List Char) :
    Option (List Char × List Char) :=
  match text with
  | [] => none
  | '\r' :: '\n' :: rest => readDouble before (gap.addBreak '\n') true rest
  | c :: rest =>
    if isBreak c then readDouble before (gap.addBreak c) true rest
    else if isBlank c then readDouble before (gap.addBlank c) false rest
    else if newLine && atDocumentMark (c :: rest) then none
    else
      let before := gap.joinTo before
      if c = '"' then some (before.reverse, rest)
      else if c = '\\' then
        match rest with
        | '\r' :: '\n' :: rest => readDouble before (.lines none []) true rest
        | d :: inner =>
          if isBreak d then readDouble before (.lines none []) true inner
          else
            match h : readEscape (d :: inner) with
            | some (e, behind) =>
              have : behind.length < inner.length + 1 := readEscape_length h
              readDouble (e :: before) .none false behind
            | none => none
        | [] => none
      else readDouble (c :: before) .none false rest
termination_by text.length

/-- Reads a scalar between single quotes from behind the opening one; a quote inside is written
twice. -/
def readSingle : List Char → Gap → Bool → List Char → Option (List Char × List Char)
  | _, _, _, [] => none
  | before, gap, _, '\r' :: '\n' :: rest => readSingle before (gap.addBreak '\n') true rest
  | before, gap, _, '\x27' :: '\x27' :: rest =>
    readSingle ('\x27' :: gap.joinTo before) .none false rest
  | before, gap, newLine, c :: rest =>
    if isBreak c then readSingle before (gap.addBreak c) true rest
    else if isBlank c then readSingle before (gap.addBlank c) false rest
    else if newLine && atDocumentMark (c :: rest) then none
    else if c = '\x27' then some ((gap.joinTo before).reverse, rest)
    else readSingle (c :: gap.joinTo before) .none false rest

/-! ### Block scalars -/

/-- What becomes of the line breaks at the end of a block scalar. -/
inductive Chomping where
  | clip
  | strip
  | keep
  deriving DecidableEq, Repr

/-- How a block scalar is written: its chomping and, if it is given, its indentation. -/
structure BlockHeader where
  chomping : Chomping
  indent : Option Nat
  deriving DecidableEq, Repr

def chomping? : Char → Option Chomping
  | '+' => some .keep
  | '-' => some .strip
  | _ => none

def readIndent : List Char → Option (Option Nat × List Char)
  | [] => some (none, [])
  | c :: rest =>
    match Text.digitValue? c with
    | none => some (none, c :: rest)
    | some 0 => none
    | some d => some (some d, rest)

def readChomping : List Char → Option Chomping × List Char
  | [] => (none, [])
  | c :: rest =>
    match chomping? c with
    | some chomping => (some chomping, rest)
    | none => (none, c :: rest)

/-- Reads the chomping and the indentation of a block scalar, in either order. -/
def readBlockHeader (text : List Char) : Option (BlockHeader × List Char) :=
  match readChomping text with
  | (some chomping, rest) => do
    let (indent, rest) ← readIndent rest
    return (⟨chomping, indent⟩, rest)
  | (none, rest) => do
    let (indent, rest) ← readIndent rest
    match indent with
    | none => return (⟨.clip, none⟩, rest)
    | some _ =>
      let (chomping, rest) := readChomping rest
      return (⟨chomping.getD .clip, indent⟩, rest)

/-- Line breaks and indentation before a line of a block scalar: the breaks, last one first, the
greatest column that was come to, the column of the line, and the rest. -/
structure BlockGap where
  breaks : List Char
  widest : Nat
  column : Nat
  rest : List Char

/-- Reads line breaks and indentation, of which no more than `indent` counts if that is known. -/
def readBlockGap (indent : Option Nat) : List Char → Nat → Nat → List Char → Option BlockGap
  | breaks, widest, column, [] => some ⟨breaks, max widest column, column, []⟩
  | breaks, widest, column, '\r' :: '\n' :: rest =>
    readBlockGap indent ('\n' :: breaks) (max widest column) 0 rest
  | breaks, widest, column, c :: rest =>
    let inIndent := match indent with
      | none => true
      | some indent => column < indent
    if c = ' ' && inIndent then readBlockGap indent breaks widest (column + 1) rest
    else if c = '\t' && inIndent then none
    else if isBreak c then
      readBlockGap indent (breakChar c :: breaks) (max widest column) 0 rest
    else some ⟨breaks, max widest column, column, c :: rest⟩

/-- What was read of a block scalar, the last character first, with its last line break, if it has
one, and whether the last line started with a blank. -/
structure BlockState where
  before : List Char
  lastBreak : List Char
  startsBlank : Bool

def lineBreak : List Char → List Char
  | [] => []
  | c :: _ => if isBreak c then [breakChar c] else []

/-- The characters before a line: what was read, the last line break, folded into a space if both
lines are to be joined, and the breaks between. -/
def joinLine (folded : Bool) (state : BlockState) (breaks : List Char) (blank : Bool) :
    List Char :=
  if folded && state.lastBreak = ['\n'] && !state.startsBlank && !blank then
    if breaks = [] then ' ' :: state.before else breaks ++ state.before
  else breaks ++ state.lastBreak ++ state.before

/-- Reads the lines of a block scalar; `steps` bounds their number. -/
def readBlockLines (folded : Bool) (chomping : Chomping) (indent : Nat) :
    Nat → BlockState → BlockGap → Option (List Char × List Char)
  | 0, _, _ => none
  | steps + 1, state, gap =>
    if gap.column = indent ∧ gap.rest ≠ [] then
      let blank := (gap.rest.head?.map isBlank).getD false
      let line := gap.rest.takeWhile (!isBreak ·)
      let rest := gap.rest.dropWhile (!isBreak ·)
      let before := line.reverse ++ joinLine folded state gap.breaks blank
      match readBlockGap (some indent) [] 0 0 (skipBreak rest) with
      | none => none
      | some gap => readBlockLines folded chomping indent steps ⟨before, lineBreak rest, blank⟩ gap
    else
      let tail := match chomping with
        | .strip => []
        | .clip => state.lastBreak
        | .keep => gap.breaks ++ state.lastBreak
      some ((tail ++ state.before).reverse, gap.rest)

/-- Reads a block scalar from behind its indicator, in a block of some indentation. -/
def readBlock (folded : Bool) (parent : Int) (text : List Char) :
    Option (List Char × List Char) := do
  let (header, rest) ← readBlockHeader text
  let behind ← skipLineEnd? rest
  let given := header.indent.map fun n => if 0 ≤ parent then parent.toNat + n else n
  let gap ← readBlockGap given [] 0 0 behind
  let indent := given.getD (max (max gap.widest (parent + 1).toNat) 1)
  readBlockLines folded header.chomping indent (text.length + 1) ⟨[], [], false⟩ gap

end StreamAdmission.Yaml
