import EngineTrials.Text.Utf8
import EngineTrials.Yaml.Scalar

/-! The tokens of a YAML text. Indentation becomes tokens that open and close blocks; a key that is
only known to be one when its colon comes gets its token put in before it. -/

namespace EngineTrials.Yaml

/-- How a scalar is written. -/
inductive ScalarStyle
  | plain
  | quoted
  | literal
  | folded
  deriving DecidableEq, Repr

/-- A token. -/
inductive Token
  | version (major minor : Nat)
  | tagHandle (handle expansion : List Char)
  | documentStart
  | documentEnd
  | blockSequenceStart
  | blockMappingStart
  | blockEnd
  | flowSequenceStart
  | flowSequenceEnd
  | flowMappingStart
  | flowMappingEnd
  | blockEntry
  | flowEntry
  | key
  | value
  | alias (name : List Char)
  | anchor (name : List Char)
  | tag (handle suffix : List Char)
  | scalar (style : ScalarStyle) (text : List Char)
  deriving DecidableEq, Repr

/-- A token that may turn out to be the start of a key. -/
structure KeyCandidate where
  /-- Whether it can be nothing else. -/
  required : Bool
  /-- How many tokens come before it. -/
  position : Nat
  start : Cursor

/-- The tokens read so far and what decides on the next one. -/
structure Scanner where
  cursor : Cursor
  tokens : Array Token
  /-- The indentation of the block around, or -1. -/
  indent : Int
  /-- The indentations of the blocks further out. -/
  outer : List Int
  /-- Whether a key without a question mark may start here. -/
  keyAllowed : Bool
  /-- The candidate of each pair of brackets, innermost first, and of the block around them. -/
  candidates : List (Option KeyCandidate)

namespace Scanner

def start (text : List Char) : Scanner := ⟨.start text, #[], -1, [], true, [none]⟩

def inFlow (s : Scanner) : Bool := 1 < s.candidates.length

def push (s : Scanner) (t : Token) : Scanner := { s with tokens := s.tokens.push t }

/-- Adds a token that `n` characters stand for. -/
def pushSkip (s : Scanner) (t : Token) (n : Nat) : Scanner :=
  { s.push t with cursor := s.cursor.skip n }

/-- Whether `c` is a byte order mark at the start of the text. It takes up a column. -/
def isLeadingMark (cursor : Cursor) (c : Char) : Bool := c == '\uFEFF' && cursor.index == 0

/-- The place of the next token: blanks, comments and line breaks are passed over. A tab counts as
a blank only where no key can start. -/
def toNextToken : Nat → Scanner → Scanner
  | 0, s => s
  | fuel + 1, s =>
    match s.cursor.text with
    | [] => s
    | c :: _ =>
      if c = ' ' ∨ (c = '\t' ∧ (s.inFlow ∨ !s.keyAllowed)) ∨ isLeadingMark s.cursor c then
        toNextToken fuel { s with cursor := s.cursor.skip 1 }
      else if c = '#' then toNextToken fuel { s with cursor := s.cursor.skipLine }
      else if isBreak c then
        toNextToken fuel
          { s with cursor := s.cursor.skipBreak, keyAllowed := s.keyAllowed || !s.inFlow }
      else s

/-- The most characters in a key without a question mark. -/
def keyLimit : Nat := 1024

/-- Whether a candidate is too far away to be a key. -/
def isStale (c : Cursor) (k : KeyCandidate) : Bool :=
  k.start.line < c.line || k.start.index + keyLimit < c.index

/-- Drops the candidates that are too far away; none of them may be required. -/
def dropStale? (s : Scanner) : Option Scanner := do
  let candidates ← s.candidates.mapM fun candidate =>
    match candidate with
    | some k => if isStale s.cursor k then if k.required then none else some none else some (some k)
    | none => some none
  some { s with candidates }

/-- Drops the innermost candidate, which may not be required. -/
def dropCandidate? (s : Scanner) : Option Scanner :=
  match s.candidates with
  | some k :: rest => if k.required then none else some { s with candidates := none :: rest }
  | _ => some s

/-- Makes the next token a candidate, if a key may start here. -/
def saveCandidate? (s : Scanner) : Option Scanner :=
  if s.keyAllowed then do
    let required := !s.inFlow && s.indent == (s.cursor.column : Int)
    let s ← s.dropCandidate?
    some { s with candidates := some ⟨required, s.tokens.size, s.cursor⟩ :: s.candidates.drop 1 }
  else some s

/-- Closes the blocks indented by more than `column`. -/
def closeBlocks (column : Int) : Nat → Scanner → Scanner
  | 0, s => s
  | fuel + 1, s =>
    if !s.inFlow ∧ column < s.indent then
      closeBlocks column fuel
        { s.push .blockEnd with indent := s.outer.headD (-1), outer := s.outer.drop 1 }
    else s

/-- Closes all blocks indented by more than `column`. -/
def unroll (s : Scanner) (column : Int) : Scanner := closeBlocks column (s.outer.length + 1) s

/-- Opens a block at `column`, if the block around is indented by less; its token goes to
`position`. -/
def openBlock (s : Scanner) (column : Nat) (position : Nat) (t : Token) : Scanner :=
  if !s.inFlow ∧ s.indent < (column : Int) then
    { s with
      tokens := (s.tokens.toList.take position ++ t :: s.tokens.toList.drop position).toArray
      indent := column, outer := s.indent :: s.outer }
  else s

/-- A character of a name: an anchor, a directive, a tag handle. -/
def isNameChar (c : Char) : Bool := c.isAlphanum || c == '_' || c == '-'

/-- A character of a tag. Inside brackets some of them end it unless it stands in angle
brackets. -/
def isTagChar (verbatim : Bool) (c : Char) : Bool :=
  isNameChar c || ";/?:@&=+$.!~*'()%".toList.contains c || (verbatim && ",[]".toList.contains c)

/-- A text with each percent sign and its two hexadecimal digits replaced by the byte they stand
for. -/
def percentBytes? : List Char → Option (List UInt8)
  | [] => some []
  | '%' :: a :: b :: rest => do
    let byte := UInt8.ofNat (← hexValue? [a, b])
    (percentBytes? rest).map (byte :: ·)
  | c :: rest =>
    if c = '%' then none else (percentBytes? rest).map (String.utf8EncodeChar c ++ ·)

def tagText? (verbatim : Bool) (c : Cursor) : Option (List Char × Cursor) := do
  let written := c.text.takeWhile (isTagChar verbatim)
  let text ← Text.Utf8.decode? (← percentBytes? written)
  some (text, c.skip written.length)

/-- Reads a tag handle: an exclamation mark, perhaps with a name and a second one. -/
def tagHandle? (c : Cursor) : Option (List Char × Cursor) :=
  match c.text with
  | '!' :: rest =>
    let name := rest.takeWhile isNameChar
    match rest.drop name.length with
    | '!' :: _ => some ('!' :: name ++ ['!'], c.skip (name.length + 2))
    | _ => some ('!' :: name, c.skip (name.length + 1))
  | _ => none

def tag? (inFlow : Bool) (c : Cursor) : Option (Token × Cursor) := do
  let (token, after) ← match c.text with
    | '!' :: '<' :: _ => do
      let (suffix, after) ← tagText? true (c.skip 2)
      if suffix ≠ [] ∧ after.text.head? = some '>' then
        some (Token.tag [] suffix, after.skip 1)
      else none
    | _ => do
      let (handle, after) ← tagHandle? c
      let (suffix, end_) ← tagText? false after
      if 1 < handle.length ∧ handle.getLast? = some '!' then
        if suffix = [] then none else some (Token.tag handle suffix, end_)
      else
        let suffix := handle.drop 1 ++ suffix
        some (if suffix = [] then Token.tag [] ['!'] else Token.tag ['!'] suffix, end_)
  if (inFlow ∧ after.text.head? = some ',') ∨ atBlankOrEnd after.text then some (token, after)
  else none

/-- Reads the name of an anchor or an alias. -/
def anchorName? (c : Cursor) : Option (List Char × Cursor) :=
  let name := (c.text.drop 1).takeWhile isNameChar
  let after := c.skip (name.length + 1)
  let endsWell : Bool := match after.text with
    | [] => true
    | ch :: _ => isBlank ch || isBreak ch || "?:,]%@\x60\x7d".toList.contains ch
  if name ≠ [] ∧ endsWell then some (name, after) else none

/-- Reads a number of at most nine digits. -/
def versionNumber? (c : Cursor) : Option (Nat × Cursor) :=
  let digits := c.text.takeWhile Char.isDigit
  if digits ≠ [] ∧ digits.length ≤ 9 then
    some (Nat.ofDigitChars 10 digits 0, c.skip digits.length)
  else none

/-- Reads a directive and the rest of its line. -/
def directive? (c : Cursor) : Option (Token × Cursor) := do
  let name := (c.text.drop 1).takeWhile isNameChar
  let after := c.skip (name.length + 1)
  if name = [] ∨ !atBlankOrEnd after.text then none
  else
    let arguments := after.skipWhile isBlank
    let (token, after) ←
      if name = "YAML".toList then do
        let (major, c) ← versionNumber? arguments
        if c.text.head? = some '.' then
          let (minor, c) ← versionNumber? (c.skip 1)
          some (Token.version major minor, c)
        else none
      else if name = "TAG".toList then do
        let (handle, c) ← tagHandle? arguments
        let wellFormed : Bool := handle = ['!'] ∨ handle.getLast? = some '!'
        let blank : Bool := (c.text.head?.map isBlank).getD false
        let (expansion, c) ← tagText? true (c.skipWhile isBlank)
        if wellFormed ∧ blank ∧ expansion ≠ [] ∧ atBlankOrEnd c.text then
          some (Token.tagHandle handle expansion, c)
        else none
      else none
    some (token, ← restOfLine? after)

/-- Reads the bounds of a document and directives: they close all blocks. -/
def atMargin? (s : Scanner) : Option Scanner := do
  let s ← (s.unroll (-1)).dropCandidate?
  some { s with keyAllowed := false }

def openBracket? (s : Scanner) (t : Token) : Option Scanner := do
  let s ← s.saveCandidate?
  let s := s.pushSkip t 1
  some { s with keyAllowed := true, candidates := none :: s.candidates }

def closeBracket? (s : Scanner) (t : Token) : Option Scanner := do
  let s ← s.dropCandidate?
  let s := s.pushSkip t 1
  let candidates := if s.inFlow then s.candidates.drop 1 else s.candidates
  some { s with keyAllowed := false, candidates }

def comma? (s : Scanner) : Option Scanner := do
  let s ← s.dropCandidate?
  some { s.pushSkip .flowEntry 1 with keyAllowed := true }

def dash? (s : Scanner) : Option Scanner :=
  if !s.inFlow ∧ !s.keyAllowed then none
  else do
    let s ← (s.openBlock s.cursor.column s.tokens.size .blockSequenceStart).dropCandidate?
    some { s.pushSkip .blockEntry 1 with keyAllowed := true }

/-- Reads a question mark that starts a key. -/
def questionMark? (s : Scanner) : Option Scanner :=
  if !s.inFlow ∧ !s.keyAllowed then none
  else do
    let s ← (s.openBlock s.cursor.column s.tokens.size .blockMappingStart).dropCandidate?
    some { s.pushSkip .key 1 with keyAllowed := !s.inFlow }

def colon? (s : Scanner) : Option Scanner :=
  match s.candidates with
  | some k :: rest =>
    let before := s.tokens.toList
    let s := { s with
      tokens := (before.take k.position ++ Token.key :: before.drop k.position).toArray
      candidates := none :: rest }
    let s := s.openBlock k.start.column k.position .blockMappingStart
    some { s.pushSkip .value 1 with keyAllowed := false }
  | _ =>
    if !s.inFlow ∧ !s.keyAllowed then none
    else
      let s := s.openBlock s.cursor.column s.tokens.size .blockMappingStart
      some { s.pushSkip .value 1 with keyAllowed := !s.inFlow }

/-- Reads a token that may start a key and is not followed by one. -/
def content? (s : Scanner) (read? : Scanner → Option (Token × Cursor)) : Option Scanner := do
  let s ← s.saveCandidate?
  let (token, cursor) ← read? s
  some { s.push token with cursor, keyAllowed := false }

def blockScalar? (s : Scanner) (folds : Bool) : Option Scanner := do
  let s ← s.dropCandidate?
  let (text, cursor) ← block folds s.indent (s.cursor.skip 1)
  let style := if folds then ScalarStyle.folded else .literal
  some { s.push (.scalar style text) with cursor, keyAllowed := true }

/-- Reads a plain scalar. A key may start after it if a line break follows. -/
def plainScalar? (s : Scanner) : Option Scanner := do
  let s ← s.saveCandidate?
  let (text, cursor, broken) ← plain s.inFlow (s.indent + 1) (s.cursor.text.length + 1) s.cursor []
    Gap.none
  some { s.push (.scalar .plain text) with cursor, keyAllowed := broken }

def quotedScalar? (s : Scanner) (mark : Char) : Option Scanner :=
  s.content? fun s => do
    let c := s.cursor.skip 1
    let (text, c) ← quoted mark (c.text.length + 1) c []
    some (.scalar .quoted text, c)

def isIndicator (c : Char) : Bool := "-?:,[]\x7b\x7d#&*!|>'\"%@\x60".toList.contains c

/-- Whether a plain scalar may start with this text. -/
def startsPlain (inFlow : Bool) (c : Char) (rest : List Char) : Bool :=
  (!isIndicator c && !isBlank c) || (c == '-' && !(rest.head?.map isBlank).getD false) ||
    (!inFlow && (c == '?' || c == ':') && !atBlankOrEnd rest)

/-- Reads the token at the place, which is not at the end of the text. -/
def readToken? (s : Scanner) (c : Char) (rest : List Char) : Option Scanner :=
  if s.cursor.column = 0 ∧ c = '%' then do
    let s ← s.atMargin?
    let (token, cursor) ← directive? s.cursor
    some { s.push token with cursor }
  else if s.cursor.column = 0 ∧ atDocumentMark (c :: rest) then do
    let s ← s.atMargin?
    some (s.pushSkip (if c = '-' then .documentStart else .documentEnd) 3)
  else if c = '[' then s.openBracket? .flowSequenceStart
  else if c = '\x7b' then s.openBracket? .flowMappingStart
  else if c = ']' then s.closeBracket? .flowSequenceEnd
  else if c = '\x7d' then s.closeBracket? .flowMappingEnd
  else if c = ',' then s.comma?
  else if c = '-' ∧ atBlankOrEnd rest then s.dash?
  else if c = '?' ∧ (s.inFlow ∨ atBlankOrEnd rest) then s.questionMark?
  else if c = ':' ∧ (s.inFlow ∨ atBlankOrEnd rest) then s.colon?
  else if c = '*' then
    s.content? fun s => (anchorName? s.cursor).map fun (name, after) => (.alias name, after)
  else if c = '&' then
    s.content? fun s => (anchorName? s.cursor).map fun (name, after) => (.anchor name, after)
  else if c = '!' then s.content? fun s => tag? s.inFlow s.cursor
  else if c = '|' ∧ !s.inFlow then s.blockScalar? false
  else if c = '>' ∧ !s.inFlow then s.blockScalar? true
  else if c = '\'' ∨ c = '"' then s.quotedScalar? c
  else if startsPlain s.inFlow c rest then s.plainScalar?
  else none

/-- Reads tokens to the end of the text. -/
def run? : Nat → Scanner → Option Scanner
  | 0, _ => none
  | fuel + 1, s => do
    let s ← (s.toNextToken (s.cursor.text.length + 1)).dropStale?
    let s := s.unroll s.cursor.column
    match s.cursor.text with
    | [] => (s.unroll (-1)).dropCandidate?
    | c :: rest => run? fuel (← s.readToken? c rest)

end Scanner

/-- The tokens of a text, if it has any reading as tokens. Each token takes at least one
character. -/
def tokens? (text : List Char) : Option (List Token) :=
  if text.all isAllowed then
    ((Scanner.start text).run? (text.length + 1)).map fun s => s.tokens.toList
  else none

end EngineTrials.Yaml
