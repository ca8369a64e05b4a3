import StreamAdmission.Proofs.Toml.Entry
import StreamAdmission.Yaml.Node

/-!
# YAML scalars on one line

A plain scalar of letters and digits, or a printable text between quotes, written as it is in the other
format of settings. What stands between the quotes is taken as it is, blanks, hashes and colons
included.
-/

namespace StreamAdmission.Yaml

open Toml (IsPrintable encodeChar)

inductive Scalar where
  | plain (text : String)
  | quoted (text : String)
  deriving DecidableEq

namespace Scalar

def style : Scalar → Style
  | plain _ => .plain
  | quoted _ => .quoted

def chars : Scalar → List Char
  | plain text => text.toList
  | quoted text => text.toList

/-- The scalar as it stands in a text. -/
def written : Scalar → List Char
  | plain text => text.toList
  | quoted text => Toml.quoted text

def token (s : Scalar) : Token := .scalar s.style s.chars

def node (s : Scalar) : Node := .scalar none none s.style s.chars

def tree (s : Scalar) : Tree := .scalar none s.style s.chars

inductive Writable : Scalar → Prop where
  | plain {text : String} (ne_nil : text.toList ≠ []) (h : ∀ c ∈ text.toList, c.isAlphanum = true) :
    Writable (plain text)
  | quoted {text : String} (h : IsPrintable text) : Writable (quoted text)

end Scalar

/-! ### Characters -/

/-- A scalar on one line starts with such a character. -/
def IsStart (c : Char) : Prop := c = '"' ∨ c.isAlphanum = true

/-- Characters that are passed over in front of a token. -/
def spaces : List Char :=
  [' ', '\t', '\n', '\r', '\x85', '\u2028', '\u2029', '\ufeff', '#']

/-- White space and the characters that mean something where a token starts, quotes apart. -/
def indicators : List Char :=
  spaces ++ ['%', '-', '.', '[', ']', '\x7b', '\x7d', ',', '?', ':', '*', '&', '!', '|', '>', '\x27',
    '@', '\x60']

theorem not_mem_of_isAlphanum {c : Char} (h : c.isAlphanum = true) : c ∉ '"' :: indicators := by
  have hOther : ('"' :: indicators).all (!·.isAlphanum) = true := by decide
  intro hc
  have hFalse := List.all_eq_true.mp hOther c hc
  rw [h] at hFalse
  cases hFalse

theorem IsStart.not_mem {c : Char} (h : IsStart c) : c ∉ indicators := by
  rcases h with rfl | h
  · decide
  · exact fun hc => not_mem_of_isAlphanum h (List.mem_cons_of_mem _ hc)

theorem IsStart.not_mem_spaces {c : Char} (h : IsStart c) : c ∉ spaces :=
  fun hc => h.not_mem (List.mem_append_left _ hc)

theorem IsStart.head?_ne {c : Char} (h : IsStart c) (rest : List Char) :
    (c :: rest).head? ≠ some '#' := by
  rintro ⟨⟩
  exact absurd h.not_mem (by decide)

theorem printable_of_isAlphanum {c : Char} (h : c.isAlphanum = true) : ' ' ≤ c ∧ c ≤ '~' := by
  simp [Text.isAlphanum_iff, Char.le_def, UInt32.le_iff_toNat_le] at h ⊢
  omega

theorem isBreak_of_printable {c : Char} (h : ' ' ≤ c ∧ c ≤ '~') : isBreak c = false := by
  have hBreaks : ['\n', '\r', '\x85', '\u2028', '\u2029'].all
      (fun c => !(decide (' ' ≤ c) && decide (c ≤ '~'))) = true := by
    decide
  have hc : c ∉ ['\n', '\r', '\x85', '\u2028', '\u2029'] := by
    intro hc
    have hFalse := List.all_eq_true.mp hBreaks c hc
    simp [h] at hFalse
  simp only [List.mem_cons, List.not_mem_nil, or_false, not_or] at hc
  simp [isBreak, hc]

theorem isBlank_of_printable {c : Char} (h : ' ' ≤ c ∧ c ≤ '~') (hSpace : c ≠ ' ') :
    isBlank c = false := by
  have hTab : c ≠ '\t' := by
    rintro rfl
    exact absurd h.1 (by decide)
  simp [isBlank, hSpace, hTab]

theorem printable_of_mem_replicate (n : Nat) :
    ∀ c ∈ List.replicate n ' ', ' ' ≤ c ∧ c ≤ '~' := by
  intro c hc
  rw [List.eq_of_mem_replicate hc]
  decide

theorem IsStart.printable {c : Char} (h : IsStart c) : ' ' ≤ c ∧ c ≤ '~' := by
  rcases h with rfl | h
  · decide
  · exact printable_of_isAlphanum h

theorem IsStart.isBreak_eq_false {c : Char} (h : IsStart c) : isBreak c = false :=
  isBreak_of_printable h.printable

theorem IsStart.isBlank_eq_false {c : Char} (h : IsStart c) : isBlank c = false := by
  apply isBlank_of_printable h.printable
  rintro rfl
  exact absurd h.not_mem (by decide)

theorem IsStart.atDocumentMark_eq_false {c : Char} (h : IsStart c) (rest : List Char) :
    atDocumentMark (c :: rest) = false := by
  rw [atDocumentMark.eq_def]
  split
  · rename_i hMark
    obtain ⟨rfl, -⟩ := List.cons.inj hMark
    exact absurd h.not_mem (by decide)
  · rename_i hMark
    obtain ⟨rfl, -⟩ := List.cons.inj hMark
    exact absurd h.not_mem (by decide)
  · rfl

/-! ### Quoted scalars -/

theorem Gap.addBlank_of_not_isLines {gap : Gap} (h : gap.isLines = false) (c : Char) :
    (gap.addBlank c).isLines = false ∧
      ∀ before, (gap.addBlank c).joinTo before = c :: gap.joinTo before := by
  cases gap with
  | none => exact ⟨rfl, fun _ => rfl⟩
  | blanks chars => exact ⟨rfl, fun _ => rfl⟩
  | lines first more => cases h

theorem readDouble_plain {c : Char} (hBreak : isBreak c = false) (hBlank : isBlank c = false)
    (hQuote : c ≠ '"') (hBackslash : c ≠ '\\') (before : List Char) (gap : Gap) (rest : List Char) :
    readDouble before gap false (c :: rest) =
      readDouble (c :: gap.joinTo before) .none false rest := by
  rw [readDouble]
  · simp [hBreak, hBlank, hQuote, hBackslash]
  · rintro _ rfl _
    cases hBreak

theorem readEscape_special {c : Char} (hc : c = '"' ∨ c = '\\') (rest : List Char) :
    readEscape (c :: rest) = some (c, rest) := by
  rcases hc with rfl | rfl
  · rfl
  · rfl

theorem readDouble_escaped {c : Char} (hc : c = '"' ∨ c = '\\') (before : List Char) (gap : Gap)
    (rest : List Char) :
    readDouble before gap false ('\\' :: c :: rest) =
      readDouble (c :: gap.joinTo before) .none false rest := by
  have hEscape := readEscape_special hc rest
  have hBreak : isBreak c = false := by
    rcases hc with rfl | rfl
    · rfl
    · rfl
  have hBackslash : isBreak '\\' = false ∧ isBlank '\\' = false ∧ '\\' ≠ '"' := by decide
  rw [readDouble]
  · simp only [hBackslash, Bool.false_eq_true, if_false, Bool.false_and, if_true]
    split
    · rename_i hReturn
      obtain ⟨rfl, -⟩ := List.cons.inj hReturn
      cases hBreak
    · rename_i hRest
      obtain ⟨rfl, rfl⟩ := List.cons.inj hRest
      simp only [hBreak, Bool.false_eq_true, if_false]
      split
      · rename_i hRead
        rw [hEscape] at hRead
        cases hRead
        rfl
      · rename_i hRead
        rw [hEscape] at hRead
        cases hRead
    · rename_i hRest
      cases hRest
  · intro _ hReturn
    cases hReturn

/-- Blanks wait for the character behind them, which may be the closing quote. -/
theorem readDouble_encoded {chars : List Char} (h : ∀ c ∈ chars, ' ' ≤ c ∧ c ≤ '~')
    (before : List Char) {gap : Gap} (hGap : gap.isLines = false) (rest : List Char) :
    readDouble before gap false (chars.flatMap encodeChar ++ '"' :: rest) =
      some ((gap.joinTo before).reverse ++ chars, rest) := by
  induction chars generalizing before gap with
  | nil =>
    rw [List.flatMap_nil, List.nil_append, List.append_nil, readDouble]
    · simp [isBreak, isBlank]
    · intro _ hReturn
      cases hReturn
  | cons c chars ih =>
    obtain ⟨hc, hChars⟩ := List.forall_mem_cons.mp h
    rw [List.flatMap_cons, List.append_assoc, encodeChar]
    split
    · rename_i hSpecial
      rw [List.cons_append, List.singleton_append, readDouble_escaped hSpecial, ih hChars _ rfl]
      simp [Gap.joinTo]
    · rename_i hOther
      rw [not_or] at hOther
      rw [List.singleton_append]
      by_cases hSpace : c = ' '
      · obtain ⟨hAdded, hJoin⟩ := Gap.addBlank_of_not_isLines hGap c
        subst hSpace
        rw [readDouble]
        · simp [isBreak, isBlank, ih hChars _ hAdded, hJoin]
        · intro _ hReturn
          cases hReturn
      · rw [readDouble_plain (isBreak_of_printable hc) (isBlank_of_printable hc hSpace) hOther.1
          hOther.2, ih hChars _ rfl]
        simp [Gap.joinTo]

/-! ### Plain scalars -/

theorem readPlainFrom_cons {c : Char} (hc : c.isAlphanum = true) (indent : Nat) (before : List Char)
    (column : Nat) (rest : List Char) :
    readPlainFrom false indent before .none column (c :: rest) =
      readPlainFrom false indent (c :: before) .none (column + 1) rest := by
  have hStart : IsStart c := Or.inr hc
  have hOther : c ≠ ':' := by
    rintro rfl
    cases hc
  have hColon : misplacedColon false (c :: rest) = false := by
    rw [misplacedColon.eq_def]
    split <;> simp
  rw [readPlainFrom]
  · simp [hStart.isBreak_eq_false, hStart.isBlank_eq_false, hColon, endsPlain, hOther, Gap.joinTo]
  · rintro _ rfl _
    cases hc

theorem readPlainFrom_append {chars : List Char} (h : ∀ c ∈ chars, c.isAlphanum = true) (indent : Nat)
    (before : List Char) (column : Nat) (rest : List Char) :
    ∃ column', readPlainFrom false indent before .none column (chars ++ rest) =
      readPlainFrom false indent (chars.reverse ++ before) .none column' rest := by
  induction chars generalizing before column with
  | nil => exact ⟨column, rfl⟩
  | cons c chars ih =>
    obtain ⟨hc, hChars⟩ := List.forall_mem_cons.mp h
    obtain ⟨column', hRest⟩ := ih hChars (c :: before) (column + 1)
    refine ⟨column', ?_⟩
    rw [List.cons_append, readPlainFrom_cons hc, hRest, List.reverse_cons, List.append_assoc,
      List.singleton_append]

theorem readPlain_key {chars rest : List Char} (h : ∀ c ∈ chars, c.isAlphanum = true)
    (hRest : atGap rest = true) (indent column : Nat) :
    readPlain false indent column (chars ++ ':' :: rest) = some ⟨chars, false, ':' :: rest⟩ := by
  obtain ⟨column', hChars⟩ := readPlainFrom_append h indent [] column (':' :: rest)
  rw [readPlain, hChars, readPlainFrom]
  · cases rest <;> simp [isBreak, isBlank, misplacedColon, endsPlain, hRest, Gap.isLines]
  · intro _ hReturn
    cases hReturn

/-- Behind a line there is nothing, or a line feed and more of the text. -/
def LineEnd (rest behind : List Char) : Prop := (rest = [] ∧ behind = []) ∨ rest = '\n' :: behind

theorem LineEnd.length_le {rest behind : List Char} (h : LineEnd rest behind) :
    behind.length ≤ rest.length := by
  rcases h with ⟨rfl, rfl⟩ | rfl
  · exact Nat.le_refl 0
  · exact Nat.le_succ _

theorem LineEnd.atGap {rest behind : List Char} (h : LineEnd rest behind) : atGap rest = true := by
  rcases h with ⟨rfl, rfl⟩ | rfl
  · rfl
  · rfl

/-- The text is over, or a line with a column of blanks in front starts. -/
def StartsLine (text : List Char) (column : Nat) (front : List Char) : Prop :=
  (text = [] ∧ front = []) ∨
    ∃ c rest, IsStart c ∧ front = c :: rest ∧ text = List.replicate column ' ' ++ front

theorem readPlainFrom_blanks (indent : Nat) (before : List Char) (first : Option Char)
    (more : List Char) (n column : Nat) (rest : List Char) :
    readPlainFrom false indent before (.lines first more) column (List.replicate n ' ' ++ rest) =
      readPlainFrom false indent before (.lines first more) (column + n) rest := by
  induction n generalizing column with
  | zero => rfl
  | succ n ih =>
    rw [List.replicate_succ, List.cons_append, readPlainFrom]
    · simp only [isBreak, isBlank, Gap.addBlank]
      simp [ih, Nat.add_assoc, Nat.add_comm 1]
    · intro _ hReturn
      cases hReturn

/-- A plain value is over with its line if the next line is not indented. -/
theorem readPlain_value {chars rest behind front : List Char} {n : Nat}
    (h : ∀ c ∈ chars, c.isAlphanum = true) (hRest : LineEnd rest behind)
    (hBehind : StartsLine behind n front) {indent : Nat} (hIndent : front ≠ [] → n < indent)
    (column : Nat) : ∃ endsLine, readPlain false indent column (chars ++ rest) =
      some ⟨chars, endsLine, front⟩ ∧ (front ≠ [] → endsLine = true) := by
  obtain ⟨column', hChars⟩ := readPlainFrom_append h indent [] column rest
  have hFeed : ∀ behind, readPlainFrom false indent chars.reverse .none column' ('\n' :: behind) =
      readPlainFrom false indent chars.reverse (.lines (some '\n') []) 0 behind := by
    intro behind
    rw [readPlainFrom]
    · rfl
    · intro _ hReturn
      cases hReturn
  rw [readPlain, hChars, List.append_nil]
  rcases hBehind with ⟨rfl, rfl⟩ | ⟨c, others, hc, rfl, rfl⟩
  · rcases hRest with ⟨rfl, -⟩ | rfl
    · exact ⟨false, by simp [readPlainFrom, Gap.isLines], fun h => absurd rfl h⟩
    · exact ⟨true, by simp [hFeed, readPlainFrom, Gap.isLines], fun _ => rfl⟩
  · rcases hRest with ⟨rfl, hNil⟩ | rfl
    · simp at hNil
    · refine ⟨true, ?_, fun _ => rfl⟩
      have hLess := hIndent (List.cons_ne_nil _ _)
      have hReturn := hc.isBreak_eq_false
      rw [hFeed, readPlainFrom_blanks, readPlainFrom]
      · simp [hReturn, hc.isBlank_eq_false, endsPlainAfterGap, hLess, Gap.isLines]
      · rintro _ rfl _
        cases hReturn

/-! ### Places -/

theorem Mark.behind_cons {c : Char} (h : isBreak c = false) (m : Mark) (rest : List Char) :
    m.behind (c :: rest) = behind ⟨m.index + c.utf8Size, m.line, m.column + 1⟩ rest := by
  rw [behind]
  · simp [h]
  · rintro _ rfl _
    cases h

theorem Mark.behind_append {chars : List Char} (h : ∀ c ∈ chars, isBreak c = false) (m : Mark)
    (rest : List Char) : m.behind (chars ++ rest) = (m.behind chars).behind rest := by
  induction chars generalizing m with
  | nil => rfl
  | cons c chars ih =>
    obtain ⟨hc, hChars⟩ := List.forall_mem_cons.mp h
    rw [List.cons_append, behind_cons hc, behind_cons hc, ih hChars]

theorem Mark.behind_printable {chars : List Char} (h : ∀ c ∈ chars, ' ' ≤ c ∧ c ≤ '~') (m : Mark) :
    m.behind chars = ⟨m.index + chars.length, m.line, m.column + chars.length⟩ := by
  induction chars generalizing m with
  | nil => rfl
  | cons c chars ih =>
    obtain ⟨hc, hChars⟩ := List.forall_mem_cons.mp h
    have hSize : c.utf8Size = 1 := by
      have hHigh := hc.2
      simp [Char.le_def, UInt32.le_iff_toNat_le] at hHigh
      simp [Char.utf8Size, UInt32.le_iff_toNat_le]
      omega
    rw [behind_cons (isBreak_of_printable hc), ih hChars, hSize, List.length_cons]
    simp only [Nat.add_assoc, Nat.add_comm 1]

theorem Mark.column_behind_feed (m : Mark) (n : Nat) :
    (m.behind ('\n' :: List.replicate n ' ')).column = n := by
  rw [behind]
  · simp [isBreak, behind_printable (printable_of_mem_replicate n)]
  · intro _ hReturn
    cases hReturn

theorem Scalar.Writable.printable {s : Scalar} (h : s.Writable) :
    ∀ c ∈ s.written, ' ' ≤ c ∧ c ≤ '~' := by
  cases h with
  | plain ne_nil h => exact fun c hc => printable_of_isAlphanum (h c hc)
  | @quoted text h =>
    intro c hc
    simp only [written, Toml.quoted, List.mem_cons, List.mem_append, List.mem_flatMap,
      List.not_mem_nil, or_false] at hc
    rcases hc with rfl | ⟨d, hd, hc⟩ | rfl
    · decide
    · rw [encodeChar] at hc
      split at hc
      · simp only [List.mem_cons, List.not_mem_nil, or_false] at hc
        rcases hc with rfl | rfl
        · decide
        · exact h c hd
      · obtain rfl := List.mem_singleton.mp hc
        exact h c hd
    · decide

theorem Scalar.Writable.exists_cons {s : Scalar} (h : s.Writable) :
    ∃ c rest, s.written = c :: rest ∧ IsStart c := by
  cases h with
  | plain ne_nil h =>
    obtain ⟨c, rest, hText⟩ := List.exists_cons_of_ne_nil ne_nil
    exact ⟨c, rest, hText, Or.inr (h c (hText ▸ List.mem_cons_self))⟩
  | quoted h => exact ⟨'"', _, rfl, Or.inl rfl⟩

theorem Scalar.Writable.length_pos {s : Scalar} (h : s.Writable) : 0 < s.written.length := by
  obtain ⟨c, rest, hWritten, -⟩ := h.exists_cons
  rw [hWritten]
  exact Nat.succ_pos _

end StreamAdmission.Yaml
