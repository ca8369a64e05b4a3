import StreamAdmission.Yaml.Token

/-!
# YAML nodes

The tree of a document, made from its tokens. A stream holds one document or none. An alias stands
for the node that its anchor marks; anchors are numbered in the order in which their nodes start, a
name that is used again counting once, and an alias is tied to the number that its name has where it
stands.
-/

namespace StreamAdmission.Yaml

/-- A node; `anchor` marks it for aliases. -/
inductive Node where
  | scalar (anchor : Option (List Char)) (tag : Option (List Char)) (style : Style)
    (text : List Char)
  | sequence (anchor : Option (List Char)) (items : List Node)
  | mapping (anchor : Option (List Char)) (pairs : List (Node × Node))
  | alias (name : List Char)

namespace Node

def blank : Node := .scalar none none .plain []

/-- What the handles of tags stand for. -/
abbrev Handles := List (List Char × List Char)

/-- The handles that need no directive. -/
def standardHandles : Handles :=
  [(['!'], ['!']), (['!', '!'], "tag:yaml.org,2002:".toList)]

/-- The whole tag; its handle has to be known. -/
def fullTag? (handles : Handles) (handle suffix : List Char) : Option (List Char) :=
  if handle = [] then some suffix
  else (handles.find? (·.1 = handle)).map fun (_, mark) => mark ++ suffix

structure Properties where
  anchor : Option (List Char)
  tag : Option (List Char)

/-- Reads the anchor and the tag in front of a node, in either order. -/
def readProperties (handles : Handles) (tokens : List Token) :
    Option (Properties × List Token) :=
  match tokens with
  | .anchor name :: .tag handle suffix :: rest => do
    return (⟨some name, some (← fullTag? handles handle suffix)⟩, rest)
  | .anchor name :: rest => some (⟨some name, none⟩, rest)
  | .tag handle suffix :: .anchor name :: rest => do
    return (⟨some name, some (← fullTag? handles handle suffix)⟩, rest)
  | .tag handle suffix :: rest => do
    return (⟨none, some (← fullTag? handles handle suffix)⟩, rest)
  | rest => some (⟨none, none⟩, rest)

/-- Whether an item of a sequence in a block is left blank in front of the tokens. -/
def endsBlockItem : List Token → Bool
  | [] | .blockEntry :: _ | .blockEnd :: _ => true
  | _ => false

/-- Whether an item of a sequence that is not indented is left blank. -/
def endsIndentlessItem : List Token → Bool
  | [] | .blockEntry :: _ | .key :: _ | .value :: _ | .blockEnd :: _ => true
  | _ => false

/-- Whether a key or a value of a mapping in a block is left blank. -/
def endsBlockPart : List Token → Bool
  | [] | .key :: _ | .value :: _ | .blockEnd :: _ => true
  | _ => false

/-- Whether a part of a pair between square brackets is left blank. -/
def endsPairPart : List Token → Bool
  | [] | .flowEntry :: _ | .flowSequenceEnd :: _ => true
  | _ => false

/-- Whether a part of a mapping between braces is left blank. -/
def endsFlowPart : List Token → Bool
  | [] | .flowEntry :: _ | .flowMappingEnd :: _ => true
  | _ => false

/-- Where a node stands: whether it may be a block, and whether it may be a sequence without an
indentation of its own. -/
inductive Place where
  | block
  | blockOrIndentless
  | flow
  deriving DecidableEq, Repr

mutual

/-- Reads a node. `steps` bounds the depth of this and the following readers. -/
def read (handles : Handles) : Nat → Place → List Token → Option (Node × List Token)
  | 0, _, _ => none
  | steps + 1, place, tokens =>
    match tokens with
    | .alias name :: rest => some (.alias name, rest)
    | tokens => do
      let (properties, rest) ← readProperties handles tokens
      match rest with
      | .scalar style text :: rest =>
        return (.scalar properties.anchor properties.tag style text, rest)
      | .flowSequenceStart :: rest => do
        let (items, rest) ← readFlowItems handles steps true rest
        return (.sequence properties.anchor items, rest)
      | .flowMappingStart :: rest => do
        let (pairs, rest) ← readFlowPairs handles steps true rest
        return (.mapping properties.anchor pairs, rest)
      | token :: inner =>
        if place = .blockOrIndentless ∧ token = .blockEntry then do
          let (items, rest) ← readIndentlessItems handles steps (token :: inner)
          return (.sequence properties.anchor items, rest)
        else if place ≠ .flow ∧ token = .blockSequenceStart then do
          let (items, rest) ← readBlockItems handles steps inner
          return (.sequence properties.anchor items, rest)
        else if place ≠ .flow ∧ token = .blockMappingStart then do
          let (pairs, rest) ← readBlockPairs handles steps inner
          return (.mapping properties.anchor pairs, rest)
        else readBlank properties rest
      | [] => readBlank properties rest

def readBlockItems (handles : Handles) : Nat → List Token → Option (List Node × List Token)
  | 0, _ => none
  | steps + 1, tokens =>
    match tokens with
    | .blockEnd :: rest => some ([], rest)
    | .blockEntry :: rest => do
      let (item, rest) ← if endsBlockItem rest then some (blank, rest)
        else read handles steps .block rest
      let (items, rest) ← readBlockItems handles steps rest
      return (item :: items, rest)
    | _ => none

def readIndentlessItems (handles : Handles) : Nat → List Token → Option (List Node × List Token)
  | 0, _ => none
  | steps + 1, tokens =>
    match tokens with
    | .blockEntry :: rest => do
      let (item, rest) ← if endsIndentlessItem rest then some (blank, rest)
        else read handles steps .block rest
      let (items, rest) ← readIndentlessItems handles steps rest
      return (item :: items, rest)
    | rest => some ([], rest)

/-- Reads the pairs of a mapping in a block, and its end. -/
def readBlockPairs (handles : Handles) :
    Nat → List Token → Option (List (Node × Node) × List Token)
  | 0, _ => none
  | steps + 1, tokens =>
    match tokens with
    | .blockEnd :: rest => some ([], rest)
    | .key :: rest => do
      let (key, rest) ← if endsBlockPart rest then some (blank, rest)
        else read handles steps .blockOrIndentless rest
      let (value, rest) ← match rest with
        | .value :: rest =>
          if endsBlockPart rest then some (blank, rest)
          else read handles steps .blockOrIndentless rest
        | rest => some (blank, rest)
      let (pairs, rest) ← readBlockPairs handles steps rest
      return ((key, value) :: pairs, rest)
    | _ => none

/-- Reads the items between square brackets, and the closing one. An item may be a single pair. -/
def readFlowItems (handles : Handles) : Nat → Bool → List Token → Option (List Node × List Token)
  | 0, _, _ => none
  | steps + 1, first, tokens => do
    match tokens with
    | .flowSequenceEnd :: rest => return ([], rest)
    | _ =>
      let tokens ← match first, tokens with
        | true, tokens => some tokens
        | false, .flowEntry :: rest => some rest
        | false, _ => none
      match tokens with
      | .flowSequenceEnd :: rest => return ([], rest)
      | .key :: rest => do
        let (key, rest) ← if endsPairPart rest || rest.head? = some .value then
            some (blank, rest.drop 1)
          else read handles steps .flow rest
        let (value, rest) ← match rest with
          | .value :: rest =>
            if endsPairPart rest then some (blank, rest) else read handles steps .flow rest
          | rest => some (blank, rest)
        let (items, rest) ← readFlowItems handles steps false rest
        return (.mapping none [(key, value)] :: items, rest)
      | tokens => do
        let (item, rest) ← read handles steps .flow tokens
        let (items, rest) ← readFlowItems handles steps false rest
        return (item :: items, rest)

/-- Reads the pairs between braces, and the closing one. A part of a pair may be left out. -/
def readFlowPairs (handles : Handles) :
    Nat → Bool → List Token → Option (List (Node × Node) × List Token)
  | 0, _, _ => none
  | steps + 1, first, tokens => do
    match tokens with
    | .flowMappingEnd :: rest => return ([], rest)
    | _ =>
      let tokens ← match first, tokens with
        | true, tokens => some tokens
        | false, .flowEntry :: rest => some rest
        | false, _ => none
      match tokens with
      | .flowMappingEnd :: rest => return ([], rest)
      | .key :: rest => do
        let (key, rest) ← if endsFlowPart rest || rest.head? = some .value then some (blank, rest)
          else read handles steps .flow rest
        let (value, rest) ← match rest with
          | .value :: rest =>
            if endsFlowPart rest then some (blank, rest) else read handles steps .flow rest
          | rest => some (blank, rest)
        let (pairs, rest) ← readFlowPairs handles steps false rest
        return ((key, value) :: pairs, rest)
      | tokens => do
        let (key, rest) ← read handles steps .flow tokens
        let (pairs, rest) ← readFlowPairs handles steps false rest
        return ((key, blank) :: pairs, rest)

def readBlank (properties : Properties) (rest : List Token) : Option (Node × List Token) :=
  if properties.anchor.isSome || properties.tag.isSome then
    some (.scalar properties.anchor properties.tag .plain [], rest)
  else none

end

/-! ### Documents -/

/-- Reads the directives of a document: a known version at most once, and handles, each of them
once. -/
def readDirectives (versioned : Bool) (handles : Handles) :
    List Token → Option (Handles × List Token)
  | .versionDirective isKnown :: rest =>
    if isKnown && !versioned then readDirectives true handles rest else none
  | .tagDirective handle mark :: rest =>
    if handles.any (·.1 = handle) then none
    else readDirectives versioned ((handle, mark) :: handles) rest
  | rest => some (handles, rest)

def startsExplicitly : List Token → Bool
  | .versionDirective _ :: _ | .tagDirective _ _ :: _ | .documentStart :: _ => true
  | _ => false

def endsDocument : List Token → Bool
  | [] | .documentEnd :: _ => true
  | tokens => startsExplicitly tokens

/-- The tree of the one document, or none if there is no document. -/
def ofTokens? (tokens : List Token) : Option (Option Node) := do
  let steps := 3 * tokens.length + 3
  if tokens = [] then return none
  let (node, rest) ← if startsExplicitly tokens then do
      let (handles, rest) ← readDirectives false [] tokens
      match rest with
      | .documentStart :: rest =>
        if endsDocument rest then some (blank, rest)
        else read (handles ++ standardHandles) steps .block rest
      | _ => none
    else read standardHandles steps .block tokens
  match rest.dropWhile (· = .documentEnd) with
  | [] => return some node
  | _ => none

end Node

/-! ### Aliases -/

/-- A node whose anchors and aliases are numbers. -/
inductive Tree where
  | scalar (tag : Option (List Char)) (style : Style) (text : List Char)
  | sequence (items : List Tree)
  | mapping (pairs : List (Tree × Tree))
  | alias (number : Nat)

abbrev Numbers := List (List Char × Nat)

/-- Gives the next number to a name, in place of the one that it has. -/
def number (numbers : Numbers) (name : List Char) : Numbers :=
  (name, numbers.length) :: numbers.filter (·.1 ≠ name)

/-- The trees with an anchor, by its number, in the order in which they start. -/
abbrev Marked := List (Nat × Tree)

/-- Gives a number to the anchor of a node. -/
def numberAnchor (numbers : Numbers) : Option (List Char) → Option Nat × Numbers
  | none => (none, numbers)
  | some name => (some numbers.length, number numbers name)

/-- A tree and those within it, in order. -/
def marked (anchor : Option Nat) (tree : Tree) (inner : Marked) : Marked :=
  match anchor with
  | none => inner
  | some n => (n, tree) :: inner

mutual

/-- Resolves the aliases of a node; one without an anchor before it is refused. -/
def resolve (numbers : Numbers) : Node → Option (Tree × Marked × Numbers)
  | .scalar anchor tag style text =>
    let (n, numbers) := numberAnchor numbers anchor
    let tree := Tree.scalar tag style text
    some (tree, marked n tree [], numbers)
  | .sequence anchor items => do
    let (n, numbers) := numberAnchor numbers anchor
    let (trees, inner, numbers) ← resolveItems numbers items
    let tree := Tree.sequence trees
    return (tree, marked n tree inner, numbers)
  | .mapping anchor pairs => do
    let (n, numbers) := numberAnchor numbers anchor
    let (trees, inner, numbers) ← resolvePairs numbers pairs
    let tree := Tree.mapping trees
    return (tree, marked n tree inner, numbers)
  | .alias name => do
    let (_, n) ← numbers.find? (·.1 = name)
    return (.alias n, [], numbers)

def resolveItems (numbers : Numbers) : List Node → Option (List Tree × Marked × Numbers)
  | [] => some ([], [], numbers)
  | item :: items => do
    let (tree, inner, numbers) ← resolve numbers item
    let (trees, others, numbers) ← resolveItems numbers items
    return (tree :: trees, inner ++ others, numbers)

/-- Resolves the aliases of pairs from left to right, each key before its value. -/
def resolvePairs (numbers : Numbers) :
    List (Node × Node) → Option (List (Tree × Tree) × Marked × Numbers)
  | [] => some ([], [], numbers)
  | (key, value) :: pairs => do
    let (keyTree, inKey, numbers) ← resolve numbers key
    let (valueTree, inValue, numbers) ← resolve numbers value
    let (trees, others, numbers) ← resolvePairs numbers pairs
    return ((keyTree, valueTree) :: trees, inKey ++ inValue ++ others, numbers)

end

/-- A document: its tree, and the trees that aliases stand for. -/
structure Document where
  root : Tree
  anchored : Marked

/-- What a tree is if it is an alias, and the tree itself otherwise. Of several trees with one
number the last counts. -/
def Document.follow (d : Document) : Tree → Option Tree
  | .alias n => (d.anchored.reverse.find? (·.1 = n)).map (·.2)
  | tree => some tree

/-- Reads the one document of a text, or none if there is no document. -/
def parse? (text : String) : Option (Option Document) := do
  match ← Node.ofTokens? (← tokens? text.toList) with
  | none => return none
  | some node => do
    let (root, anchored, _) ← resolve [] node
    return some ⟨root, anchored⟩

end StreamAdmission.Yaml
