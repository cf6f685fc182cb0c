import EngineTrials.Yaml.Token

/-! The tree of a YAML document. An alias stands for the node with its anchor, which may be one that
the alias is part of, so nodes with anchors are kept in a table and an alias is a place in it. -/

namespace EngineTrials.Yaml

/-- A node. A scalar whose tag is an exclamation mark alone counts as one without a tag. -/
inductive Node
  | scalar (tag : Option (List Char)) (style : ScalarStyle) (text : List Char)
  | sequence (items : List Node)
  | mapping (pairs : List (Node × Node))
  | alias (index : Nat)

/-- A document; a text of blanks and comments has no root. -/
structure Document where
  root : Option Node
  /-- The nodes with anchors, by their number. -/
  anchored : List (Nat × Node)

/-- The node that an alias stands for, and any other node itself. -/
def Document.follow (d : Document) : Node → Node
  | .alias index => (d.anchored.lookup index).getD (.sequence [])
  | node => node

/-- What has been built so far. -/
structure Build where
  /-- The tokens not used yet. -/
  tokens : List Token
  /-- The latest number of each anchor. -/
  anchors : List (List Char × Nat) := []
  anchored : List (Nat × Node) := []
  /-- The number of the next anchor. -/
  next : Nat := 0
  /-- What tag handles stand for. -/
  handles : List (List Char × List Char)

namespace Build

def peek : StateT Build Option (Option Token) := return (← get).tokens.head?

def drop : StateT Build Option Unit := modify fun b => { b with tokens := b.tokens.drop 1 }

def fail {α : Type} : StateT Build Option α := fun _ => none

/-- Passes over the next token if it is `t`; it has to be. -/
def expect (t : Token) : StateT Build Option Unit := do
  if (← peek) = some t then drop else fail

def emptyScalar : Node := .scalar none .plain []

/-- The tag that a handle and a suffix spell. -/
def resolveTag (handle suffix : List Char) : StateT Build Option (List Char) := do
  if handle = [] then return suffix
  match (← get).handles.lookup handle with
  | some expansion => return expansion ++ suffix
  | none => fail

/-- Reads the anchor at the place, if there is one. -/
def anchor? : StateT Build Option (Option (List Char)) := do
  match ← peek with
  | some (.anchor name) => drop; return some name
  | _ => return none

/-- Reads the tag at the place, if there is one. -/
def tag? : StateT Build Option (Option (List Char)) := do
  match ← peek with
  | some (.tag handle suffix) => drop; return some (← resolveTag handle suffix)
  | _ => return none

/-- Reads an anchor and a tag in either order. -/
def properties : StateT Build Option (Option (List Char) × Option (List Char)) := do
  match ← anchor? with
  | some name => return (some name, ← tag?)
  | none =>
    let tag ← tag?
    return (← anchor?, tag)

def register (anchor : Option (List Char)) : StateT Build Option (Option Nat) :=
  match anchor with
  | none => return none
  | some name => fun b =>
    some (some b.next, { b with anchors := (name, b.next) :: b.anchors, next := b.next + 1 })

/-- Puts a node with an anchor into the table. -/
def store (number : Option Nat) (node : Node) : StateT Build Option Node :=
  match number with
  | none => return node
  | some n => fun b => some (node, { b with anchored := (n, node) :: b.anchored })

/-- Whether a node is missing before this token in a block. -/
def endsBlockNode (inSequence : Bool) : Option Token → Bool
  | some .blockEntry => inSequence
  | some .key => !inSequence
  | some .value => !inSequence
  | some .blockEnd => true
  | _ => false

/-- Whether a node is missing before this token inside brackets that `last` closes. -/
def endsFlowNode (last : Token) (t : Option Token) : Bool :=
  t == some .flowEntry || t == some last

mutual

/-- Reads a node. `inBlock` says whether it may be a block; `indentless` whether it may be a
sequence whose dashes stand no deeper than the key before it. -/
def node : Nat → Bool → Bool → StateT Build Option Node
  | 0, _, _ => fail
  | fuel + 1, inBlock, indentless => do
    match ← peek with
    | some (.alias name) =>
      drop
      match (← get).anchors.lookup name with
      | some index => return .alias index
      | none => fail
    | _ =>
      let (anchor, tag) ← properties
      let number ← register anchor
      let built ← (match ← peek with
        | some .blockEntry =>
          if indentless then return .sequence (← indentlessItems fuel)
          else if anchor.isSome ∨ tag.isSome then return .scalar tag .plain []
          else fail
        | some (.scalar style text) => do
          drop
          return .scalar (if tag = some ['!'] then none else tag) style text
        | some .flowSequenceStart => do drop; return .sequence (← flowItems fuel true)
        | some .flowMappingStart => do drop; return .mapping (← flowPairs fuel true)
        | some .blockSequenceStart =>
          if inBlock then do drop; return .sequence (← blockItems fuel)
          else if anchor.isSome ∨ tag.isSome then return .scalar tag .plain []
          else fail
        | some .blockMappingStart =>
          if inBlock then do drop; return .mapping (← blockPairs fuel)
          else if anchor.isSome ∨ tag.isSome then return .scalar tag .plain []
          else fail
        | _ =>
          if anchor.isSome ∨ tag.isSome then return .scalar tag .plain [] else fail)
      store number built

def blockItems : Nat → StateT Build Option (List Node)
  | 0 => fail
  | fuel + 1 => do
    match ← peek with
    | some .blockEntry =>
      drop
      let item ← if endsBlockNode true (← peek) then pure emptyScalar else node fuel true false
      return item :: (← blockItems fuel)
    | some .blockEnd => drop; return []
    | _ => fail

/-- Reads the items of a sequence that opened no block. -/
def indentlessItems : Nat → StateT Build Option (List Node)
  | 0 => fail
  | fuel + 1 => do
    match ← peek with
    | some .blockEntry =>
      drop
      let after ← peek
      let missing := endsBlockNode true after || endsBlockNode false after
      let item ← if missing then pure emptyScalar else node fuel true false
      return item :: (← indentlessItems fuel)
    | _ => return []

def blockPairs : Nat → StateT Build Option (List (Node × Node))
  | 0 => fail
  | fuel + 1 => do
    match ← peek with
    | some .key =>
      drop
      let key ← if endsBlockNode false (← peek) then pure emptyScalar else node fuel true true
      let value ← blockValue fuel
      return (key, value) :: (← blockPairs fuel)
    | some .blockEnd => drop; return []
    | _ => fail

/-- Reads the value of a pair in a block mapping. -/
def blockValue : Nat → StateT Build Option Node
  | 0 => fail
  | fuel + 1 => do
    match ← peek with
    | some .value =>
      drop
      if endsBlockNode false (← peek) then return emptyScalar else node fuel true true
    | _ => return emptyScalar

/-- Reads the items of a sequence in brackets. -/
def flowItems : Nat → Bool → StateT Build Option (List Node)
  | 0, _ => fail
  | fuel + 1, first => do
    if (← peek) = some .flowSequenceEnd then
      drop
      return []
    if !first then expect .flowEntry
    match ← peek with
    | some .flowSequenceEnd => drop; return []
    | some .key =>
      drop
      let after ← peek
      let key ← if after = some .value ∨ endsFlowNode .flowSequenceEnd after then
          drop
          pure emptyScalar
        else node fuel false false
      let value ← flowValue fuel .flowSequenceEnd
      return .mapping [(key, value)] :: (← flowItems fuel false)
    | _ =>
      let item ← node fuel false false
      return item :: (← flowItems fuel false)

/-- Reads the pairs of a mapping in brackets. -/
def flowPairs : Nat → Bool → StateT Build Option (List (Node × Node))
  | 0, _ => fail
  | fuel + 1, first => do
    if (← peek) = some .flowMappingEnd then
      drop
      return []
    if !first then expect .flowEntry
    match ← peek with
    | some .flowMappingEnd => drop; return []
    | some .key =>
      drop
      let after ← peek
      let key ← if after = some .value ∨ endsFlowNode .flowMappingEnd after then pure emptyScalar
        else node fuel false false
      let value ← flowValue fuel .flowMappingEnd
      return (key, value) :: (← flowPairs fuel false)
    | _ =>
      let key ← node fuel false false
      return (key, emptyScalar) :: (← flowPairs fuel false)

/-- Reads the value of a pair inside brackets that `last` closes. -/
def flowValue : Nat → Token → StateT Build Option Node
  | 0, _ => fail
  | fuel + 1, last => do
    match ← peek with
    | some .value =>
      drop
      if endsFlowNode last (← peek) then return emptyScalar else node fuel false false
    | _ => return emptyScalar

end

def defaultHandles : List (List Char × List Char) :=
  [(['!'], ['!']), (['!', '!'], "tag:yaml.org,2002:".toList)]

/-- Reads the directives before a document: at most one version, which has to be 1.1 or 1.2, and no
handle twice. -/
def directives : List Token → Bool → List (List Char × List Char) →
    Option (List (List Char × List Char) × List Token)
  | .version major minor :: rest, versioned, handles =>
    if versioned ∨ major ≠ 1 ∨ (minor ≠ 1 ∧ minor ≠ 2) then none
    else directives rest true handles
  | .tagHandle handle expansion :: rest, versioned, handles =>
    if (handles.lookup handle).isSome then none
    else directives rest versioned ((handle, expansion) :: handles)
  | rest, _, handles => some (handles ++ defaultHandles, rest)

/-- Whether a document that was opened has nothing in it before this token. -/
def endsDocument : Option Token → Bool
  | none => true
  | some (.version _ _) => true
  | some (.tagHandle _ _) => true
  | some .documentStart => true
  | some .documentEnd => true
  | _ => false

def content (opened : Bool) : StateT Build Option Node := do
  if opened && endsDocument (← peek) then return emptyScalar
  else node (2 * (← get).tokens.length + 2) true false

end Build

/-- The document of a text that holds exactly one. -/
def Document.ofTokens? (tokens : List Token) : Option Document :=
  if tokens = [] then some ⟨none, []⟩
  else do
    let opened := Build.endsDocument tokens.head? && tokens.head? != some .documentEnd
    let (handles, rest) ← Build.directives tokens false []
    let rest ← if opened then
        if rest.head? = some .documentStart then some (rest.drop 1) else none
      else some rest
    let (root, b) ← (Build.content opened).run { tokens := rest, handles }
    if b.tokens.all (· == .documentEnd) then some ⟨some root, b.anchored⟩ else none

def Document.ofText? (text : String) : Option Document :=
  (tokens? text.toList).bind ofTokens?

end EngineTrials.Yaml
