import StreamAdmission.Proofs.Yaml.Scalar

/-!
# YAML lines token by token

What reading does with one line of a mapping in a block: the key is put in front of the tokens for it
only when its colon is met, blocks that are indented more end, and a block starts if the line is indented
more than all that are open.
-/

namespace StreamAdmission.Yaml

theorem StartsLine.unique {text front front' : List Char} {n n' : Nat} (h : StartsLine text n front)
    (h' : StartsLine text n' front') : front' = front ∧ (front ≠ [] → n' = n) := by
  have hParts : ∀ {n front}, StartsLine text n front → front = text.dropWhile (· = ' ') ∧
      (front ≠ [] → n = (text.takeWhile (· = ' ')).length) := by
    intro n front h
    rcases h with ⟨rfl, rfl⟩ | ⟨c, rest, hc, rfl, rfl⟩
    · exact ⟨rfl, fun h => absurd rfl h⟩
    · have hSpace : ∀ d ∈ List.replicate n ' ', decide (d = ' ') = true := by
        intro d hd
        simp [List.eq_of_mem_replicate hd]
      have hOther : ∀ d ∈ (c :: rest).head?, decide (d = ' ') = false := by
        rintro _ ⟨⟩
        have hBlank := hc.isBlank_eq_false
        simp only [isBlank, Bool.or_eq_false_iff] at hBlank
        exact hBlank.1
      rw [Json.takeWhile_append_of_head hSpace hOther, Json.dropWhile_append_of_head hSpace hOther]
      exact ⟨rfl, fun _ => (List.length_replicate ..).symm⟩
  obtain ⟨hFront, hColumn⟩ := hParts h
  obtain ⟨hFront', hColumn'⟩ := hParts h'
  have hSame : front' = front := hFront'.trans hFront.symm
  refine ⟨hSame, fun hNonempty => ?_⟩
  rw [hColumn hNonempty, hColumn' (hSame ▸ hNonempty)]

namespace Reading

/-! ### Moves -/

theorem moveTo_append {r : Reading} {chars rest : List Char} (h : r.rest = chars ++ rest) :
    r.moveTo rest = { r with rest := rest, mark := r.mark.behind chars } := by
  simp [moveTo, h]

theorem skipGap_front {c : Char} (hBreak : isBreak c = false) (hBlank : isBlank c = false)
    (hMark : c ≠ '\ufeff') (startsLine keyAllowed : Bool) (rest : List Char) :
    skipGap false startsLine keyAllowed (c :: rest) = (keyAllowed, c :: rest) := by
  have hSpace : c ≠ ' ' ∧ c ≠ '\t' := by simpa [isBlank] using hBlank
  rw [skipGap]
  · simp [hBreak, hSpace, hMark]
  · rintro _ rfl _
    cases hBreak

theorem skipGap_blanks {c : Char} (hc : IsStart c) (startsLine keyAllowed : Bool) (n : Nat)
    (rest : List Char) : skipGap false startsLine keyAllowed (List.replicate n ' ' ++ c :: rest) =
      (keyAllowed, c :: rest) := by
  induction n generalizing startsLine with
  | zero =>
    apply skipGap_front hc.isBreak_eq_false hc.isBlank_eq_false
    rintro rfl
    exact absurd hc.not_mem (by decide)
  | succ n ih =>
    rw [List.replicate_succ, List.cons_append, skipGap]
    · simp [ih]
    · intro _ hReturn
      cases hReturn

theorem skipGap_feed (startsLine keyAllowed : Bool) (rest : List Char) :
    skipGap false startsLine keyAllowed ('\n' :: rest) = skipGap false true true rest := by
  rw [skipGap]
  · simp [isBreak]
  · intro _ hReturn
    cases hReturn

theorem skipGaps_of_skipGap {startsLine keyAllowed keyAllowed' : Bool} {text front : List Char}
    (h : skipGap false startsLine keyAllowed text = (keyAllowed', front))
    (hHash : front.head? ≠ some '#') (steps : Nat) :
    skipGaps false (steps + 1) startsLine keyAllowed text = (keyAllowed', front) := by
  rw [skipGaps, h]
  split
  · rename_i hFront
    rw [Prod.mk.injEq] at hFront
    rw [hFront.2] at hHash
    exact absurd rfl hHash
  · rfl

theorem skipToToken_eq {r : Reading} {space front : List Char} {keyAllowed : Bool}
    (hFlow : r.outerKeys = []) (hRest : r.rest = space ++ front) (hHash : front.head? ≠ some '#')
    (h : skipGap false (r.mark.column = 0) r.keyAllowed r.rest = (keyAllowed, front)) :
    r.skipToToken =
      { r with rest := front, mark := r.mark.behind space, keyAllowed := keyAllowed } := by
  have hGaps := skipGaps_of_skipGap h hHash r.rest.length
  rw [skipToToken]
  simp only [inFlow, hFlow, List.isEmpty_nil, Bool.not_true, hGaps, moveTo_append hRest]

theorem skipToToken_front {r : Reading} {c : Char} {rest : List Char} (hFlow : r.outerKeys = [])
    (hRest : r.rest = c :: rest) (hc : c ∉ spaces) : r.skipToToken = r := by
  simp only [spaces, List.mem_cons, List.not_mem_nil, or_false, not_or] at hc
  have hGap : skipGap false (r.mark.column = 0) r.keyAllowed r.rest = (r.keyAllowed, c :: rest) := by
    rw [hRest]
    exact skipGap_front (by simp [isBreak, hc]) (by simp [isBlank, hc]) (by simp [hc]) _ _ _
  have hSplit : r.rest = [] ++ c :: rest := hRest
  rw [skipToToken_eq hFlow hSplit (by simp [hc]) hGap, Mark.behind, ← hRest]

theorem skipToToken_over {r : Reading} (hFlow : r.outerKeys = [])
    (hRest : r.rest = [] ∨ r.rest = ['\n']) : r.skipToToken.rest = [] := by
  have hSplit : r.rest = r.rest ++ [] := (List.append_nil _).symm
  rcases hRest with hRest | hRest
  · rw [skipToToken_eq hFlow hSplit nofun (by rw [hRest]; rfl)]
  · rw [skipToToken_eq hFlow hSplit nofun (by rw [hRest, skipGap_feed]; rfl)]

/-- Nothing but white space stands in front of a text that starts a line. -/
structure Awaits (r : Reading) (text : List Char) : Prop where
  possible : r.possible = none
  outerKeys : r.outerKeys = []
  reaches : ∀ n front, StartsLine text n front → r.skipToToken.rest = front ∧
    (front ≠ [] → r.skipToToken.mark.column = n ∧ r.skipToToken.keyAllowed = true)

theorem awaits_start (text : List Char) : (start text).Awaits text where
  possible := rfl
  outerKeys := rfl
  reaches := by
    intro n front h
    rcases h with ⟨rfl, rfl⟩ | ⟨c, rest, hc, rfl, rfl⟩
    · exact ⟨rfl, fun h => absurd rfl h⟩
    · rw [skipToToken_eq rfl rfl (hc.head?_ne rest) (skipGap_blanks hc _ _ n rest)]
      refine ⟨rfl, fun _ => ⟨?_, rfl⟩⟩
      rw [Mark.behind_printable (printable_of_mem_replicate n)]
      simp [start, Mark.start]

/-- Behind a line a key may start again. -/
theorem awaits_of_lineEnd {r : Reading} {behind : List Char} (hPossible : r.possible = none)
    (hFlow : r.outerKeys = []) (hRest : LineEnd r.rest behind) : r.Awaits behind where
  possible := hPossible
  outerKeys := hFlow
  reaches := by
    intro n front h
    rcases h with ⟨rfl, rfl⟩ | ⟨c, rest, hc, rfl, rfl⟩
    · refine ⟨?_, fun h => absurd rfl h⟩
      apply skipToToken_over hFlow
      rcases hRest with ⟨hRest, -⟩ | hRest
      · exact Or.inl hRest
      · exact Or.inr hRest
    · rcases hRest with ⟨-, hNil⟩ | hRest
      · simp at hNil
      · have hGap : skipGap false (r.mark.column = 0) r.keyAllowed r.rest = (true, c :: rest) := by
          rw [hRest, skipGap_feed]
          exact skipGap_blanks hc true true n rest
        have hSplit : r.rest = ('\n' :: List.replicate n ' ') ++ c :: rest := hRest
        rw [skipToToken_eq hFlow hSplit (hc.head?_ne rest) hGap]
        exact ⟨rfl, fun _ => ⟨Mark.column_behind_feed _ n, rfl⟩⟩

/-- A reading that is already at the front of the line. -/
theorem awaits_of_front {r : Reading} {text front : List Char} {n : Nat}
    (h : StartsLine text n front) (hPossible : r.possible = none) (hFlow : r.outerKeys = [])
    (hRest : r.rest = front) (hReady : front ≠ [] → r.mark.column = n ∧ r.keyAllowed = true) :
    r.Awaits text where
  possible := hPossible
  outerKeys := hFlow
  reaches := by
    intro n' front' h'
    obtain ⟨rfl, hColumn⟩ := h.unique h'
    rcases h with ⟨-, rfl⟩ | ⟨c, rest, hc, rfl, -⟩
    · exact ⟨skipToToken_over hFlow (Or.inl hRest), fun h => absurd rfl h⟩
    · rw [skipToToken_front hFlow hRest hc.not_mem_spaces, hColumn (List.cons_ne_nil _ _)]
      exact ⟨hRest, hReady⟩

/-! ### Open blocks -/

/-- What is left of the open blocks, and the tokens, when all that are indented more than a column have
ended. -/
def closeTo (column : Int) : List Int → Int → List Token → Int × List Int × List Token
  | [], indent, tokens => (indent, [], tokens)
  | outer :: others, indent, tokens =>
    if column < indent then closeTo column others outer (.blockEnd :: tokens)
    else (indent, outer :: others, tokens)

section Blocks
variable {r : Reading} {column column' indent indent' : Int} {outers outers' : List Int}
  {tokens tokens' : List Token}

theorem unroll_eq (hFlow : r.outerKeys = [])
    (h : closeTo column r.outerIndents r.indent r.tokens = (indent, outers, tokens)) :
    r.unroll column = { r with indent := indent, outerIndents := outers, tokens := tokens } := by
  have hGo : ∀ outers' indent' tokens', closeTo column outers' indent' tokens' =
      (indent, outers, tokens) → unroll.go r column outers' indent' tokens' =
        { r with indent := indent, outerIndents := outers, tokens := tokens } := by
    intro outers'
    induction outers' with
    | nil =>
      intro indent' tokens' h
      cases h
      rfl
    | cons outer others ih =>
      intro indent' tokens' h
      rw [closeTo] at h
      rw [unroll.go]
      split at h
      · rename_i hLess
        rw [if_pos hLess]
        exact ih _ _ h
      · rename_i hLess
        rw [if_neg hLess]
        cases h
        rfl
  have hOutside : r.inFlow ≠ true := by simp [inFlow, hFlow]
  rw [unroll, if_neg hOutside]
  exact hGo _ _ _ h

theorem closeTo_of_le (h : indent ≤ column) :
    closeTo column outers indent tokens = (indent, outers, tokens) := by
  cases outers with
  | nil => rfl
  | cons outer others => exact if_neg (Int.not_lt.mpr h)

theorem unroll_of_le (hFlow : r.outerKeys = []) (h : r.indent ≤ column) : r.unroll column = r :=
  unroll_eq hFlow (closeTo_of_le h)

/-- Blocks that end at a column end at every smaller one too. -/
theorem closeTo_closeTo (hLess : column ≤ column')
    (h : closeTo column' outers indent tokens = (indent', outers', tokens')) :
    closeTo column outers' indent' tokens' = closeTo column outers indent tokens := by
  induction outers generalizing indent tokens with
  | nil =>
    cases h
    rfl
  | cons outer others ih =>
    rw [closeTo] at h
    split at h
    · rename_i hMore
      rw [ih h]
      exact (if_pos (Int.lt_of_le_of_lt hLess hMore)).symm
    · cases h
      rfl

end Blocks

/-- The reading goes on in the block at a column, once the blocks inside it have ended. -/
def InBlock (r : Reading) (column : Nat) (outers : List Int) (tokens : List Token) : Prop :=
  closeTo column r.outerIndents r.indent r.tokens = (↑column, outers, tokens)

/-- A key at a column goes on in the block with this indentation, or a block starts and the token for its
start is added. -/
def Enters (column : Nat) (indent : Int) (others : List Int) (before : List Token) (outers : List Int)
    (tokens : List Token) : Prop :=
  (indent = column ∧ others = outers ∧ before = tokens) ∨
    (indent < column ∧ outers = indent :: others ∧ tokens = .blockMappingStart :: before)

theorem Enters.indent_le {column : Nat} {indent : Int} {others outers : List Int}
    {before tokens : List Token} (h : Enters column indent others before outers tokens) :
    indent ≤ column := by
  rcases h with ⟨hIndent, -, -⟩ | ⟨hIndent, -, -⟩
  · exact Int.le_of_eq hIndent
  · exact Int.le_of_lt hIndent

/-- A line at a column is a line of a block with these outer ones, perhaps its first. -/
def Opens (r : Reading) (column : Nat) (outers : List Int) (tokens : List Token) : Prop :=
  ∃ indent others before,
    closeTo column r.outerIndents r.indent r.tokens = (indent, others, before) ∧
      Enters column indent others before outers tokens

theorem InBlock.opens {r : Reading} {column : Nat} {outers : List Int} {tokens : List Token}
    (h : r.InBlock column outers tokens) : r.Opens column outers tokens :=
  ⟨column, outers, tokens, h, Or.inl ⟨rfl, rfl, rfl⟩⟩

/-- Once the block inside it has ended, the reading goes on in the outer one. -/
theorem InBlock.outer {r : Reading} {column : Nat} {outers : List Int} {tokens : List Token}
    (h : r.InBlock (column + 2) (column :: outers) tokens) :
    r.InBlock column outers (.blockEnd :: tokens) := by
  have hLess : (column : Int) < ↑(column + 2) := by omega
  rw [InBlock, ← closeTo_closeTo (Int.le_of_lt hLess) h, closeTo, if_pos hLess]
  exact closeTo_of_le (Int.le_refl _)

/-! ### Tokens of a line -/

/-- Some tokens are read and no more. -/
def Leads (n : Nat) (r r' : Reading) : Prop := ∀ steps, readAll (steps + n) r = readAll steps r'

theorem Leads.trans {m n : Nat} {r r' r'' : Reading} (h : Leads m r r') (h' : Leads n r' r'') :
    Leads (m + n) r r'' := by
  intro steps
  rw [Nat.add_comm m n, ← Nat.add_assoc, h, h']

theorem refreshKeys?_eq {r : Reading} (hFlow : r.outerKeys = [])
    (hFresh : ∀ key, r.possible = some key → r.isStale key = false) : r.refreshKeys? = some r := by
  have hPossible : r.refresh? r.possible = some r.possible := by
    cases hKey : r.possible with
    | none => rfl
    | some key => simp [refresh?, hFresh key hKey]
  have hOuter : r.outerKeys.mapM r.refresh? = some r.outerKeys := by
    rw [hFlow]
    rfl
  rw [refreshKeys?, hPossible, hOuter]
  rfl

theorem leads_of_readToken {r q r' : Reading} (hSkip : r.skipToToken = q) (hFlow : q.outerKeys = [])
    (hFresh : ∀ key, q.possible = some key → q.isStale key = false) (hRest : q.rest ≠ [])
    (hToken : (q.unroll q.mark.column).readToken = some r') : Leads 1 r r' := by
  intro steps
  rw [readAll, hSkip, refreshKeys?_eq hFlow hFresh]
  simp only [Option.bind_eq_bind, Option.bind_some, if_neg hRest, hToken]

theorem readToken_quoted {r : Reading} {rest : List Char} (h : r.rest = '"' :: rest) :
    r.readToken = r.readContent fun text =>
      (readDouble [] .none false (text.drop 1)).map fun (chars, rest) =>
        (.scalar .quoted chars, rest) := by
  simp [readToken, h, atDocumentMark]

theorem readToken_colon {r : Reading} {rest : List Char} (h : r.rest = ':' :: rest)
    (hGap : atGap rest = true) : r.readToken = r.readValueMark := by
  simp [readToken, h, atDocumentMark, hGap]

theorem readToken_plain {r : Reading} {c : Char} {rest : List Char} (h : r.rest = c :: rest)
    (hc : c.isAlphanum = true) : r.readToken = r.readPlainScalar := by
  have hStart : IsStart c := Or.inr hc
  have hMark := hStart.atDocumentMark_eq_false rest
  have hOther := not_mem_of_isAlphanum hc
  simp only [indicators, spaces, List.cons_append, List.nil_append, List.mem_cons, List.not_mem_nil,
    or_false, not_or] at hOther
  have hPlain : startsPlain r.inFlow (c :: rest) = true := by
    simp [startsPlain, hOther, atGap, hStart.isBreak_eq_false, hStart.isBlank_eq_false,
      isFlowIndicator]
  simp [readToken, h, hMark, hOther, hPlain]

theorem readToken_of_quoted {r q : Reading} {text : String} {rest : List Char}
    (h : Toml.IsPrintable text) (hRest : r.rest = Toml.quoted text ++ rest)
    (hSave : r.saveKey? = some q) (hSame : q.rest = r.rest) :
    r.readToken = some (((q.moveTo rest).emit (.scalar .quoted text.toList)).allowKey false) := by
  have hRead := readDouble_encoded h [] (show Gap.none.isLines = false from rfl) rest
  have hFront : r.rest = '"' :: (text.toList.flatMap Toml.encodeChar ++ '"' :: rest) := by
    rw [hRest, Toml.quoted, List.cons_append, List.append_assoc, List.singleton_append]
  rw [readToken_quoted hFront, readContent, hSave]
  simp only [Option.bind_eq_bind, Option.bind_some, hSame, hFront, List.drop_one, List.tail_cons,
    hRead, Option.map_some]
  rfl

theorem readToken_of_plain {r q : Reading} {c : Char} {others : List Char} {scalar : PlainEnd}
    (hRest : r.rest = c :: others) (hc : c.isAlphanum = true) (hSave : r.saveKey? = some q)
    (hRead : readPlain q.inFlow (q.indent + 1).toNat q.mark.column q.rest = some scalar) :
    r.readToken = some
      (((q.moveTo scalar.rest).emit (.scalar .plain scalar.chars)).allowKey scalar.endsLine) := by
  rw [readToken_plain hRest hc, readPlainScalar, hSave]
  simp only [Option.bind_eq_bind, Option.bind_some, hRead]
  rfl

/-- A key is only remembered, with the place and the number of the tokens in front of it. -/
theorem readToken_key {r : Reading} {key : Scalar} (hKey : key.Writable) {rest : List Char}
    (hRest : r.rest = key.written ++ ':' :: rest) (hGap : atGap rest = true)
    (hAllowed : r.keyAllowed = true) (hPossible : r.possible = none) (hFlow : r.outerKeys = []) :
    ∃ required, r.readToken = some { r with
      rest := ':' :: rest
      mark := r.mark.behind key.written
      keyAllowed := false
      possible := some ⟨required, r.tokens.length, r.mark⟩
      tokens := key.token :: r.tokens } := by
  let required := !r.inFlow && r.indent = r.mark.column
  let q : Reading := { r with possible := some ⟨required, r.tokens.length, r.mark⟩ }
  have hSave : r.saveKey? = some q := by
    rw [saveKey?, if_pos hAllowed, dropKey?, hPossible]
    rfl
  have hMove : q.moveTo (':' :: rest) =
      { q with rest := ':' :: rest, mark := r.mark.behind key.written } := moveTo_append hRest
  refine ⟨required, ?_⟩
  cases hKey with
  | @plain text ne_nil h =>
    obtain ⟨c, others, hText⟩ := List.exists_cons_of_ne_nil ne_nil
    have hFront : r.rest = c :: (others ++ ':' :: rest) := by
      rw [hRest, Scalar.written, hText]
      rfl
    have hRead : readPlain q.inFlow (q.indent + 1).toNat q.mark.column q.rest =
        some ⟨text.toList, false, ':' :: rest⟩ := by
      have hOutside : q.inFlow = false := by simp [inFlow, q, hFlow]
      rw [hOutside]
      exact hRest ▸ readPlain_key h hGap _ _
    rw [readToken_of_plain hFront (h c (hText ▸ List.mem_cons_self)) hSave hRead, hMove]
    rfl
  | @quoted text h =>
    rw [readToken_of_quoted h hRest hSave rfl, hMove]
    rfl

theorem insertAt_eq {r : Reading} {later before : List Token} (h : r.tokens = later ++ before)
    (token : Token) :
    r.insertAt before.length token = { r with tokens := later ++ token :: before } := by
  simp [insertAt, h]

theorem roll_of_le {r : Reading} {column : Nat} (h : (column : Int) ≤ r.indent) (number : Nat)
    (token : Token) : r.roll column number token = r := by
  rw [roll, if_pos (by simp [h])]

theorem roll_of_lt {r : Reading} {column : Nat} {later before : List Token}
    (hFlow : r.outerKeys = []) (h : r.indent < column) (hTokens : r.tokens = later ++ before)
    (token : Token) : r.roll column before.length token = { r with
      indent := column
      outerIndents := r.indent :: r.outerIndents
      tokens := later ++ token :: before } := by
  have hLess : ¬ (r.inFlow || decide ((column : Int) ≤ r.indent)) = true := by
    simp [inFlow, hFlow, h]
  rw [roll, if_neg hLess, insertAt_eq hTokens]

/-- At its colon the token for the key goes in front of it, and in front of this the start of a block if
the key is indented more than the block that is open. -/
theorem completeKey_eq {r : Reading} {key : PossibleKey} {scalar : Token} {before tokens : List Token}
    {outers : List Int} (hFlow : r.outerKeys = []) (hTokens : r.tokens = scalar :: before)
    (hNumber : key.number = before.length)
    (hEnters : Enters key.mark.column r.indent r.outerIndents before outers tokens) :
    r.completeKey key = { r with
      indent := key.mark.column
      outerIndents := outers
      keyAllowed := false
      possible := none
      tokens := scalar :: .key :: tokens } := by
  let q : Reading := { r with possible := none, tokens := scalar :: .key :: before }
  have hKey : { r.insertAt key.number .key with possible := none } = q := by
    have hSplit : r.tokens = [scalar] ++ before := hTokens
    rw [hNumber, insertAt_eq hSplit]
    rfl
  rw [completeKey, hKey]
  rcases hEnters with ⟨hIndent, rfl, rfl⟩ | ⟨hIndent, rfl, rfl⟩
  · have hRoll : q.roll key.mark.column key.number .blockMappingStart = q :=
      @roll_of_le q _ (Int.le_of_eq hIndent.symm) _ _
    rw [hRoll, ← hIndent]
    rfl
  · have hSplit : q.tokens = [scalar, .key] ++ before := rfl
    have hRoll := @roll_of_lt q _ _ _ hFlow hIndent hSplit .blockMappingStart
    rw [hNumber, hRoll]
    rfl

theorem readToken_mark {r : Reading} {key : PossibleKey} {scalar : Token} {before tokens : List Token}
    {outers : List Int} {rest : List Char} (hRest : r.rest = ':' :: rest) (hGap : atGap rest = true)
    (hFlow : r.outerKeys = []) (hPossible : r.possible = some key)
    (hTokens : r.tokens = scalar :: before) (hNumber : key.number = before.length)
    (hEnters : Enters key.mark.column r.indent r.outerIndents before outers tokens) :
    r.readToken = some { r with
      rest := rest
      mark := r.mark.behind [':']
      indent := key.mark.column
      outerIndents := outers
      keyAllowed := false
      possible := none
      tokens := .value :: scalar :: .key :: tokens } := by
  have hDrop : r.rest.drop 1 = rest := by rw [hRest, List.drop_one, List.tail_cons]
  have hSplit : r.rest = [':'] ++ rest := hRest
  rw [readToken_colon hRest hGap, readValueMark, hPossible]
  simp only [Option.map_some, completeKey_eq hFlow hTokens hNumber hEnters, hDrop, emit]
  rw [moveTo_append (by exact hSplit)]

/-- A key can no longer be one behind this many bytes. -/
def keyLimit : Nat := 1024

/-- The reading at the colon behind a key that starts at a place. -/
def atColon (m : Mark) (required : Bool) (key : Scalar) (rest : List Char) (indent : Int)
    (others : List Int) (before : List Token) : Reading :=
  ⟨':' :: rest, m.behind key.written, indent, others, false, some ⟨required, before.length, m⟩, [],
    key.token :: before⟩

variable {r : Reading} {column : Nat} {indent : Int} {others outers : List Int}
  {before tokens : List Token}

theorem exists_leads_atColon {key : Scalar} {rest : List Char} (hKey : key.Writable)
    (hGap : atGap rest = true)
    (h : r.Awaits (List.replicate column ' ' ++ (key.written ++ ':' :: rest)))
    (hClose : closeTo column r.outerIndents r.indent r.tokens = (indent, others, before)) :
    ∃ m : Mark, ∃ required, m.column = column ∧
      Leads 1 r (atColon m required key rest indent others before) := by
  have hFront : StartsLine (List.replicate column ' ' ++ (key.written ++ ':' :: rest)) column
      (key.written ++ ':' :: rest) := by
    obtain ⟨c, chars, hWritten, hc⟩ := hKey.exists_cons
    rw [hWritten]
    exact Or.inr ⟨c, chars ++ ':' :: rest, hc, rfl, rfl⟩
  have hNonempty : key.written ++ ':' :: rest ≠ [] := by simp
  obtain ⟨hRest, hReady⟩ := h.reaches column _ hFront
  obtain ⟨hColumn, hAllowed⟩ := hReady hNonempty
  let q := r.skipToToken
  let opened : Reading := { q with indent := indent, outerIndents := others, tokens := before }
  have hUnroll : q.unroll q.mark.column = opened := by
    rw [hColumn]
    exact unroll_eq h.outerKeys hClose
  have hFresh : ∀ possible, q.possible = some possible → q.isStale possible = false := by
    rw [show q.possible = none from h.possible]
    exact nofun
  obtain ⟨required, hToken⟩ := @readToken_key opened key hKey rest hRest hGap hAllowed h.possible
    h.outerKeys
  refine ⟨q.mark, required, hColumn, ?_⟩
  apply leads_of_readToken rfl h.outerKeys hFresh (hRest ▸ hNonempty)
  rw [hUnroll, hToken, show opened.outerKeys = [] from h.outerKeys]
  rfl

/-- The key is on the line of its colon and not too long, so it is still a key there. -/
theorem leads_of_atColon {m : Mark} {required : Bool} {key : Scalar} {rest : List Char}
    (hKey : key.Writable) (hShort : key.written.length ≤ keyLimit) (hGap : atGap rest = true)
    (hEnters : Enters m.column indent others before outers tokens) :
    Leads 1 (atColon m required key rest indent others before)
      ⟨rest, (m.behind key.written).behind [':'], m.column, outers, false, none, [],
        .value :: key.token :: .key :: tokens⟩ := by
  let met := atColon m required key rest indent others before
  have hMark : met.mark = ⟨m.index + key.written.length, m.line, m.column + key.written.length⟩ :=
    Mark.behind_printable hKey.printable m
  have hFresh : ∀ possible, met.possible = some possible → met.isStale possible = false := by
    intro possible hPossible
    cases hPossible
    simp [isStale, hMark, keyLimit] at hShort ⊢
    exact hShort
  have hIndent : met.indent ≤ met.mark.column := by
    have hColumn := hEnters.indent_le
    rw [hMark]
    show indent ≤ ↑(m.column + key.written.length)
    omega
  have hSkip : met.skipToToken = met := skipToToken_front rfl rfl (by decide)
  apply leads_of_readToken hSkip rfl hFresh (List.cons_ne_nil _ _)
  rw [unroll_of_le rfl hIndent]
  exact @readToken_mark met ⟨required, before.length, m⟩ _ _ _ _ _ rfl hGap rfl rfl rfl rfl hEnters

theorem leads_key {key : Scalar} {rest : List Char} (hKey : key.Writable)
    (hShort : key.written.length ≤ keyLimit) (hGap : atGap rest = true)
    (h : r.Awaits (List.replicate column ' ' ++ (key.written ++ ':' :: rest)))
    (hOpens : r.Opens column outers tokens) : ∃ m : Mark, column ≤ m.column ∧
      Leads 2 r ⟨rest, m, column, outers, false, none, [], .value :: key.token :: .key :: tokens⟩ := by
  obtain ⟨indent, others, before, hClose, hEnters⟩ := hOpens
  obtain ⟨m, required, rfl, hFirst⟩ := exists_leads_atColon hKey hGap h hClose
  have hSecond := @leads_of_atColon _ _ _ _ _ m required _ _ hKey hShort hGap hEnters
  refine ⟨_, ?_, hFirst.trans hSecond⟩
  rw [Mark.behind_printable hKey.printable]
  simp [Mark.behind, isBreak]
  omega

/-- A plain value takes the end of its line and what is in front of the next one. -/
theorem column_moveTo {q : Reading} {chars rest behind front : List Char} {n : Nat}
    (hRest : q.rest = chars ++ rest) (hChars : ∀ c ∈ chars, isBreak c = false)
    (hEnd : LineEnd rest behind) (hBehind : StartsLine behind n front) (hFront : front ≠ []) :
    (q.moveTo front).mark.column = n := by
  rcases hBehind with ⟨-, rfl⟩ | ⟨c, others, hc, rfl, rfl⟩
  · exact absurd rfl hFront
  · rcases hEnd with ⟨-, hNil⟩ | rfl
    · simp at hNil
    · have hSplit : q.rest = (chars ++ '\n' :: List.replicate n ' ') ++ c :: others := by
        rw [hRest, List.append_assoc, List.cons_append]
      rw [moveTo_append hSplit, Mark.behind_append hChars]
      exact Mark.column_behind_feed _ n

theorem leads_value {value : Scalar} {rest behind front : List Char} {n : Nat} {m : Mark}
    (hValue : value.Writable) (hm : column ≤ m.column) (hEnd : LineEnd rest behind)
    (hBehind : StartsLine behind n front) (hLess : front ≠ [] → n ≤ column) :
    ∃ r', Leads 1 ⟨' ' :: (value.written ++ rest), m, column, outers, false, none, [], tokens⟩ r' ∧
      r'.Awaits behind ∧ r'.InBlock column outers (value.token :: tokens) := by
  obtain ⟨c, others, hWritten, hc⟩ := hValue.exists_cons
  let before : Reading :=
    ⟨' ' :: (value.written ++ rest), m, column, outers, false, none, [], tokens⟩
  let q : Reading := { before with rest := value.written ++ rest, mark := m.behind [' '] }
  have hFlow : q.outerKeys = [] := rfl
  have hSkip : before.skipToToken = q := by
    have hGap : skipGap false (before.mark.column = 0) before.keyAllowed before.rest =
        (false, value.written ++ rest) := by
      show skipGap _ _ _ (' ' :: (value.written ++ rest)) = _
      rw [hWritten]
      exact skipGap_blanks hc _ _ 1 _
    have hSplit : before.rest = [' '] ++ (value.written ++ rest) := rfl
    apply skipToToken_eq rfl hSplit _ hGap
    rw [hWritten]
    exact hc.head?_ne _
  have hIndent : q.indent ≤ q.mark.column := by
    have hColumn : q.mark.column = m.column + 1 := rfl
    rw [hColumn]
    show (column : Int) ≤ _
    omega
  have hLeads : ∀ r', q.readToken = some r' → Leads 1 before r' := by
    intro r' hToken
    apply leads_of_readToken hSkip hFlow nofun
    · simp [q, hWritten]
    · rwa [unroll_of_le hFlow hIndent]
  cases hValue with
  | @plain text ne_nil h =>
    have hFront : q.rest = c :: (others ++ rest) := congrArg (· ++ rest) hWritten
    have hText : text.toList = c :: others := hWritten
    have hAlphanum : c.isAlphanum = true := h c (hText ▸ List.mem_cons_self)
    have hLine : ∀ c ∈ text.toList, isBreak c = false :=
      fun c hc => isBreak_of_printable (printable_of_isAlphanum (h c hc))
    have hOuter : front ≠ [] → n < (q.indent + 1).toNat := by
      intro hNonempty
      have hColumn := hLess hNonempty
      show n < ((column : Int) + 1).toNat
      omega
    obtain ⟨endsLine, hRead, hAllowed⟩ := readPlain_value h hEnd hBehind hOuter q.mark.column
    refine ⟨_, hLeads _ (readToken_of_plain hFront hAlphanum rfl hRead), ?_,
      closeTo_of_le (Int.le_refl _)⟩
    apply awaits_of_front hBehind rfl rfl rfl
    intro hNonempty
    exact ⟨column_moveTo rfl hLine hEnd hBehind hNonempty, hAllowed hNonempty⟩
  | @quoted text h =>
    refine ⟨_, hLeads _ (readToken_of_quoted h rfl rfl rfl), ?_, closeTo_of_le (Int.le_refl _)⟩
    exact awaits_of_lineEnd rfl rfl hEnd

/-- At the end of the text all blocks end. -/
theorem readAll_over (h : r.Awaits [])
    (hClose : closeTo (-1) r.outerIndents r.indent r.tokens = (-1, [], tokens)) (steps : Nat) :
    readAll (steps + 1) r = some tokens.reverse := by
  obtain ⟨hRest, -⟩ := h.reaches 0 [] (Or.inl ⟨rfl, rfl⟩)
  have hPossible : r.skipToToken.possible = none := h.possible
  have hFlow : r.skipToToken.outerKeys = [] := h.outerKeys
  have hKeys : r.skipToToken.refreshKeys? = some r.skipToToken := by
    apply refreshKeys?_eq hFlow
    rw [hPossible]
    exact nofun
  rw [readAll, hKeys]
  simp only [Option.bind_eq_bind, Option.bind_some, if_pos hRest]
  rw [unroll_eq hFlow hClose, dropKey?, hPossible]
  rfl

end Reading

end StreamAdmission.Yaml
