import StreamAdmission.Proofs.Toml.Document
import StreamAdmission.Proofs.Yaml.Line

/-!
# YAML mappings in blocks

A mapping with scalars and with mappings of the same kind as values, one line for each key, where what
belongs to a mapping inside is indented by two blanks. From its lines come its tokens, and from these the
tree that it stands for.
-/

namespace StreamAdmission.Yaml

open Toml (LinesText)

inductive Block where
  | done
  | entry (key value : Scalar) (others : Block)
  | nested (key : Scalar) (inner others : Block)

namespace Block

def lines (column : Nat) : Block → List (List Char)
  | done => []
  | entry key value others =>
    (List.replicate column ' ' ++ (key.written ++ ':' :: ' ' :: value.written)) ::
      others.lines column
  | nested key inner others =>
    (List.replicate column ' ' ++ (key.written ++ [':'])) ::
      (inner.lines (column + 2) ++ others.lines column)

def tokens : Block → List Token
  | done => []
  | entry key value others => .key :: key.token :: .value :: value.token :: others.tokens
  | nested key inner others =>
    .key :: key.token :: .value :: .blockMappingStart :: (inner.tokens ++ .blockEnd :: others.tokens)

def pairs : Block → List (Node × Node)
  | done => []
  | entry key value others => (key.node, value.node) :: others.pairs
  | nested key inner others => (key.node, .mapping none inner.pairs) :: others.pairs

def trees : Block → List (Tree × Tree)
  | done => []
  | entry key value others => (key.tree, value.tree) :: others.trees
  | nested key inner others => (key.tree, .mapping inner.trees) :: others.trees

inductive Writable : Block → Prop where
  | done : Writable done
  | entry {key value : Scalar} {others : Block} (hKey : key.Writable)
    (hShort : key.written.length ≤ Reading.keyLimit) (hValue : value.Writable)
    (h : Writable others) : Writable (entry key value others)
  | nested {key : Scalar} {inner others : Block} (hKey : key.Writable)
    (hShort : key.written.length ≤ Reading.keyLimit) (ne_done : inner ≠ .done)
    (hInner : Writable inner) (h : Writable others) : Writable (nested key inner others)

variable {b : Block} {column column' : Nat}

/-! ### Lines -/

theorem exists_lineEnd {line text : List Char} {lines : List (List Char)}
    (h : LinesText (line :: lines) text) :
    ∃ rest behind, text = line ++ rest ∧ LineEnd rest behind ∧ LinesText lines behind := by
  cases h with
  | last => exact ⟨[], [], (List.append_nil line).symm, Or.inl ⟨rfl, rfl⟩, .nil⟩
  | @more _ behind _ h => exact ⟨'\n' :: behind, behind, rfl, Or.inr rfl, h⟩

/-- The first of the lines, if there is one, is indented by no more than a column. -/
def Within (column : Nat) (lines : List (List Char)) : Prop :=
  ∀ text, LinesText lines text → ∃ n front, StartsLine text n front ∧ (front ≠ [] → n ≤ column)

theorem within_nil (column : Nat) : Within column [] := by
  intro text hText
  cases hText
  exact ⟨0, [], Or.inl ⟨rfl, rfl⟩, fun h => absurd rfl h⟩

theorem Within.mono {lines : List (List Char)} (h : Within column lines) (hColumn : column ≤ column') :
    Within column' lines := by
  intro text hText
  obtain ⟨n, front, hFront, hLess⟩ := h text hText
  exact ⟨n, front, hFront, fun hNonempty => Nat.le_trans (hLess hNonempty) hColumn⟩

theorem within_cons {key : Scalar} (hKey : key.Writable) (hColumn : column ≤ column')
    (rest : List Char) (more : List (List Char)) :
    Within column' ((List.replicate column ' ' ++ (key.written ++ rest)) :: more) := by
  intro text hText
  obtain ⟨c, others, hWritten, hc⟩ := hKey.exists_cons
  obtain ⟨behind, _, rfl, -, -⟩ := exists_lineEnd hText
  refine ⟨column, c :: (others ++ rest ++ behind), Or.inr ⟨c, _, hc, rfl, ?_⟩, fun _ => hColumn⟩
  simp [hWritten]

theorem Writable.within (h : b.Writable) (hColumn : column ≤ column') {more : List (List Char)}
    (hMore : Within column' more) : Within column' (b.lines column ++ more) := by
  cases h with
  | done => exact hMore
  | entry hKey => exact within_cons hKey hColumn _ _
  | nested hKey => exact within_cons hKey hColumn _ _

/-! ### Tokens -/

open Reading (Leads)

/-- Up to the rest of the text no more tokens are read than there are characters. -/
def Passes (r r' : Reading) (text behind : List Char) : Prop :=
  ∃ n, n + behind.length ≤ text.length ∧ Leads n r r' ∧ r'.Awaits behind

theorem Passes.awaits {r r' : Reading} {text behind : List Char} (h : Passes r r' text behind) :
    r'.Awaits behind := by
  obtain ⟨_, -, -, hAwaits⟩ := h
  exact hAwaits

theorem Passes.trans {r r' r'' : Reading} {text behind rest : List Char}
    (h : Passes r r' text behind) (h' : Passes r' r'' behind rest) : Passes r r'' text rest := by
  obtain ⟨m, hm, hFirst, -⟩ := h
  obtain ⟨n, hn, hSecond, hAwaits⟩ := h'
  exact ⟨m + n, by omega, hFirst.trans hSecond, hAwaits⟩

variable {r : Reading} {outers : List Int} {before : List Token} {more : List (List Char)}
  {text : List Char} {key value : Scalar}

theorem exists_passes_entry (hKey : key.Writable) (hShort : key.written.length ≤ Reading.keyLimit)
    (hValue : value.Writable) (hMore : Within column more)
    (hText : LinesText ((List.replicate column ' ' ++
      (key.written ++ ':' :: ' ' :: value.written)) :: more) text)
    (hAwaits : r.Awaits text) (hOpens : r.Opens column outers before) :
    ∃ r' behind, Passes r r' text behind ∧ LinesText more behind ∧
      r'.InBlock column outers (value.token :: .value :: key.token :: .key :: before) := by
  obtain ⟨rest, behind, rfl, hEnd, hBehind⟩ := exists_lineEnd hText
  obtain ⟨n, front, hFront, hLess⟩ := hMore behind hBehind
  have hSplit : List.replicate column ' ' ++ (key.written ++ ':' :: ' ' :: value.written) ++ rest =
      List.replicate column ' ' ++ (key.written ++ ':' :: ' ' :: (value.written ++ rest)) := by
    simp
  rw [hSplit] at hAwaits ⊢
  obtain ⟨m, hm, hFirst⟩ := Reading.leads_key hKey hShort rfl hAwaits hOpens
  obtain ⟨r', hSecond, hAwaits', hInBlock⟩ := Reading.leads_value hValue hm hEnd hFront hLess
  refine ⟨r', behind, ⟨3, ?_, hFirst.trans hSecond, hAwaits'⟩, hBehind, hInBlock⟩
  have hKeyLength := hKey.length_pos
  have hRestLength := hEnd.length_le
  simp only [List.length_append, List.length_cons]
  omega

theorem exists_passes_header (hKey : key.Writable) (hShort : key.written.length ≤ Reading.keyLimit)
    (hText : LinesText ((List.replicate column ' ' ++ (key.written ++ [':'])) :: more) text)
    (hAwaits : r.Awaits text) (hOpens : r.Opens column outers before) :
    ∃ r' behind, Passes r r' text behind ∧ LinesText more behind ∧
      r'.Opens (column + 2) (column :: outers)
        (.blockMappingStart :: .value :: key.token :: .key :: before) := by
  obtain ⟨rest, behind, rfl, hEnd, hBehind⟩ := exists_lineEnd hText
  have hSplit : List.replicate column ' ' ++ (key.written ++ [':']) ++ rest =
      List.replicate column ' ' ++ (key.written ++ ':' :: rest) := by
    simp
  rw [hSplit] at hAwaits ⊢
  obtain ⟨m, -, hLeads⟩ := Reading.leads_key hKey hShort hEnd.atGap hAwaits hOpens
  refine ⟨_, behind, ⟨2, ?_, hLeads, Reading.awaits_of_lineEnd rfl rfl hEnd⟩, hBehind, ?_⟩
  · have hKeyLength := hKey.length_pos
    have hRestLength := hEnd.length_le
    simp only [List.length_append, List.length_cons]
    omega
  · have hLess : (column : Int) < ↑(column + 2) := by omega
    exact ⟨column, outers, _, Reading.closeTo_of_le (Int.le_of_lt hLess),
      Or.inr ⟨hLess, rfl, rfl⟩⟩

/-- The lines of a block give its tokens. The block inside a nested one ends with the line behind it. -/
theorem Writable.exists_passes (h : b.Writable) (hMore : Within column more)
    (hText : LinesText (b.lines column ++ more) text) (hAwaits : r.Awaits text)
    (hOpens : r.Opens column outers before) (hDone : b = .done → r.InBlock column outers before) :
    ∃ r' behind, Passes r r' text behind ∧ LinesText more behind ∧
      r'.InBlock column outers (b.tokens.reverse ++ before) := by
  induction h generalizing r column outers before more text with
  | done => exact ⟨r, text, ⟨0, by omega, fun _ => rfl, hAwaits⟩, hText, hDone rfl⟩
  | @entry key value others hKey hShort hValue h ih =>
    rw [lines, List.cons_append] at hText
    obtain ⟨line, behind, hLine, hBehind, hInBlock⟩ := exists_passes_entry hKey hShort hValue
      (h.within (Nat.le_refl column) hMore) hText hAwaits hOpens
    obtain ⟨r', rest, hOthers, hRest, hInBlock'⟩ :=
      ih hMore hBehind hLine.awaits hInBlock.opens fun _ => hInBlock
    refine ⟨r', rest, hLine.trans hOthers, hRest, ?_⟩
    simpa [tokens] using hInBlock'
  | @nested key inner others hKey hShort ne_done hInner h ihInner ih =>
    rw [lines, List.cons_append, List.append_assoc] at hText
    obtain ⟨header, behind, hHeader, hBehind, hOpens'⟩ := exists_passes_header hKey hShort hText
      hAwaits hOpens
    have hWithin : Within (column + 2) (others.lines column ++ more) :=
      h.within (Nat.le_add_right column 2) (hMore.mono (Nat.le_add_right column 2))
    obtain ⟨inside, rest, hInside, hRest, hInBlock⟩ :=
      ihInner hWithin hBehind hHeader.awaits hOpens' fun hDone => absurd hDone ne_done
    have hOuter := hInBlock.outer
    obtain ⟨r', last, hOthers, hLast, hInBlock'⟩ :=
      ih hMore hRest hInside.awaits hOuter.opens fun _ => hOuter
    refine ⟨r', last, (hHeader.trans hInside).trans hOthers, hLast, ?_⟩
    simpa [tokens] using hInBlock'

/-! ### Characters -/

theorem Writable.printable (h : b.Writable) (column : Nat) :
    ∀ line ∈ b.lines column, ∀ c ∈ line, ' ' ≤ c ∧ c ≤ '~' := by
  have hIndent : ∀ {column : Nat} {content : List Char}, (∀ c ∈ content, ' ' ≤ c ∧ c ≤ '~') →
      ∀ c ∈ List.replicate column ' ' ++ content, ' ' ≤ c ∧ c ≤ '~' := fun hContent =>
    List.forall_mem_append.mpr ⟨printable_of_mem_replicate _, hContent⟩
  induction h generalizing column with
  | done => exact fun _ hLine => absurd hLine List.not_mem_nil
  | entry hKey hShort hValue h ih =>
    refine List.forall_mem_cons.mpr ⟨hIndent ?_, ih column⟩
    simp only [List.forall_mem_append, List.forall_mem_cons]
    exact ⟨hKey.printable, by decide, by decide, hValue.printable⟩
  | nested hKey hShort ne_done hInner h ihInner ih =>
    refine List.forall_mem_cons.mpr ⟨hIndent ?_, ?_⟩
    · simp only [List.forall_mem_append, List.forall_mem_singleton]
      exact ⟨hKey.printable, by decide⟩
    · exact List.forall_mem_append.mpr ⟨ihInner (column + 2), ih column⟩

theorem all_of_linesText {p : Char → Bool} (hFeed : p '\n' = true) {lines : List (List Char)}
    {text : List Char} (hLines : ∀ line ∈ lines, ∀ c ∈ line, p c = true) (h : LinesText lines text) :
    text.all p = true := by
  rw [List.all_eq_true]
  induction h with
  | nil => exact fun _ hc => absurd hc List.not_mem_nil
  | last line => exact hLines line List.mem_cons_self
  | more line h ih =>
    obtain ⟨hLine, hMore⟩ := List.forall_mem_cons.mp hLines
    exact List.forall_mem_append.mpr ⟨hLine, List.forall_mem_cons.mpr ⟨hFeed, ih hMore⟩⟩

theorem isAllowed_of_printable {c : Char} (h : ' ' ≤ c ∧ c ≤ '~') : isAllowed c = true := by
  simp [isAllowed, h]

/-- A block that is not empty and fills a text is one mapping of this text. -/
theorem Writable.tokens?_eq (h : b.Writable) (ne_done : b ≠ .done)
    (hText : LinesText (b.lines 0) text) :
    tokens? text = some (.blockMappingStart :: (b.tokens ++ [.blockEnd])) := by
  have hAllowed : text.all isAllowed = true := all_of_linesText rfl
    (fun line hLine c hc => isAllowed_of_printable (h.printable 0 line hLine c hc)) hText
  have hOpens : (Reading.start text).Opens 0 [-1] [.blockMappingStart] :=
    ⟨-1, [], [], rfl, Or.inr ⟨by decide, rfl, rfl⟩⟩
  have hLines : LinesText (b.lines 0 ++ []) text := (List.append_nil (b.lines 0)).symm ▸ hText
  obtain ⟨r, behind, ⟨n, hn, hLeads, hAwaits⟩, hOver, hInBlock⟩ := h.exists_passes (within_nil 0)
    hLines (Reading.awaits_start text) hOpens fun hDone => absurd hDone ne_done
  cases hOver
  obtain ⟨steps, hSteps⟩ : ∃ steps, text.length + 1 = steps + 1 + n :=
    ⟨text.length - n, by omega⟩
  have hClose : Reading.closeTo (-1) r.outerIndents r.indent r.tokens =
      (-1, [], .blockEnd :: (b.tokens.reverse ++ [.blockMappingStart])) := by
    rw [← Reading.closeTo_closeTo (by decide) hInBlock]
    rfl
  rw [tokens?, if_pos hAllowed, hSteps, hLeads, Reading.readAll_over hAwaits hClose]
  simp

/-! ### Trees -/

theorem readProperties_other {handles : Node.Handles} {token : Token} {rest : List Token}
    (hAnchor : ∀ name, token ≠ .anchor name) (hTag : ∀ handle suffix, token ≠ .tag handle suffix) :
    Node.readProperties handles (token :: rest) = some (⟨none, none⟩, token :: rest) := by
  cases token <;> simp_all [Node.readProperties]

theorem read_scalar (handles : Node.Handles) (steps : Nat) (place : Node.Place) (s : Scalar)
    (rest : List Token) :
    Node.read handles (steps + 1) place (s.token :: rest) = some (s.node, rest) := by
  have hProperties := @readProperties_other handles s.token rest nofun nofun
  rw [Scalar.token] at hProperties ⊢
  rw [Node.read, hProperties]
  · rfl
  · intro name others h
    cases h

theorem read_mapping (handles : Node.Handles) (steps : Nat) {place : Node.Place}
    (hPlace : place ≠ .flow) (inner : List Token) :
    Node.read handles (steps + 1) place (.blockMappingStart :: inner) =
      (Node.readBlockPairs handles steps inner).map fun (pairs, rest) =>
        (.mapping none pairs, rest) := by
  have hProperties := @readProperties_other handles .blockMappingStart inner nofun nofun
  rw [Node.read, hProperties]
  · simp [hPlace]
    cases Node.readBlockPairs handles steps inner <;> rfl
  · intro name others h
    cases h

theorem readBlockPairs_step (handles : Node.Handles) (steps : Nat) (key : Scalar) (first : Token)
    (hValue : Node.endsBlockPart [first] = false) (rest : List Token) :
    Node.readBlockPairs handles (steps + 2) (.key :: key.token :: .value :: first :: rest) =
      (Node.read handles (steps + 1) .blockOrIndentless (first :: rest)).bind fun (node, rest) =>
        (Node.readBlockPairs handles (steps + 1) rest).map fun (pairs, rest) =>
          ((key.node, node) :: pairs, rest) := by
  have hKey : Node.endsBlockPart (key.token :: .value :: first :: rest) = false := rfl
  have hNode : Node.endsBlockPart (first :: rest) = false := by
    cases first <;> first | rfl | cases hValue
  rw [Node.readBlockPairs, hKey]
  simp only [Bool.false_eq_true, if_false, read_scalar, Option.bind_eq_bind, Option.bind_some, hNode]
  cases Node.read handles (steps + 1) .blockOrIndentless (first :: rest) with
  | none => rfl
  | some read =>
    simp only [Option.bind_some]
    cases Node.readBlockPairs handles (steps + 1) read.2 <;> rfl

theorem readBlockPairs_tokens (b : Block) (handles : Node.Handles) (rest : List Token) {steps : Nat}
    (hSteps : b.tokens.length < steps) :
    Node.readBlockPairs handles steps (b.tokens ++ .blockEnd :: rest) = some (b.pairs, rest) := by
  induction b generalizing steps rest with
  | done =>
    obtain ⟨steps, rfl⟩ : ∃ n, steps = n + 1 := ⟨steps - 1, by omega⟩
    rfl
  | entry key value others ih =>
    simp only [tokens, List.length_cons] at hSteps
    obtain ⟨steps, rfl⟩ : ∃ n, steps = n + 2 := ⟨steps - 2, by omega⟩
    simp only [tokens, List.cons_append]
    rw [readBlockPairs_step _ _ _ _ rfl, read_scalar]
    simp only [Option.bind_some, ih rest (show others.tokens.length < steps + 1 by omega)]
    rfl
  | nested key inner others ihInner ih =>
    simp only [tokens, List.length_cons, List.length_append] at hSteps
    obtain ⟨steps, rfl⟩ : ∃ n, steps = n + 2 := ⟨steps - 2, by omega⟩
    simp only [tokens, List.cons_append, List.append_assoc]
    rw [readBlockPairs_step _ _ _ _ rfl, read_mapping _ _ (by decide),
      ihInner _ (show inner.tokens.length < steps by omega)]
    simp only [Option.map_some, Option.bind_some,
      ih rest (show others.tokens.length < steps + 1 by omega)]
    rfl

/-- Without anchors nothing is to be resolved. -/
theorem resolvePairs_pairs (b : Block) (numbers : Numbers) :
    resolvePairs numbers b.pairs = some (b.trees, [], numbers) := by
  induction b generalizing numbers with
  | done => rfl
  | entry key value others ih =>
    rw [pairs, resolvePairs]
    simp only [Scalar.node, resolve, numberAnchor, ih, Option.bind_eq_bind, Option.bind_some]
    rfl
  | nested key inner others ihInner ih =>
    rw [pairs, resolvePairs]
    simp only [Scalar.node, resolve, numberAnchor, ihInner, ih, Option.bind_eq_bind,
      Option.bind_some]
    rfl

/-- The lines of a block, as far as there are some, are a document with its tree. -/
theorem Writable.parse?_eq (h : b.Writable) (ne_done : b ≠ .done) {text : String}
    (hText : LinesText (b.lines 0) text.toList) :
    parse? text = some (some ⟨.mapping b.trees, []⟩) := by
  have hNode : Node.ofTokens? (.blockMappingStart :: (b.tokens ++ [.blockEnd])) =
      some (some (.mapping none b.pairs)) := by
    have hPairs : Node.readBlockPairs Node.standardHandles
        (3 * (b.tokens.length + 2) + 2) (b.tokens ++ [.blockEnd]) = some (b.pairs, []) :=
      b.readBlockPairs_tokens _ [] (by omega)
    have hRead : Node.read Node.standardHandles (3 * (b.tokens.length + 2) + 3) .block
        (.blockMappingStart :: (b.tokens ++ [.blockEnd])) = some (.mapping none b.pairs, []) := by
      rw [read_mapping _ _ (by decide), hPairs]
      rfl
    have hLength : (Token.blockMappingStart :: (b.tokens ++ [.blockEnd])).length =
        b.tokens.length + 2 := by
      simp
    rw [Node.ofTokens?, hLength]
    simp only [if_neg (List.cons_ne_nil _ _), Node.startsExplicitly, Bool.false_eq_true, if_false,
      hRead, Option.bind_eq_bind, Option.bind_some]
    rfl
  rw [parse?, h.tokens?_eq ne_done hText]
  simp only [Option.bind_eq_bind, Option.bind_some, hNode]
  simp only [resolve, numberAnchor, resolvePairs_pairs, Option.bind_eq_bind, Option.bind_some]
  rfl

end Block

end StreamAdmission.Yaml
