import EngineTrials.Json.Reader
import EngineTrials.Yaml.Cursor

/-! The scalars of YAML: plain and quoted ones, whose line breaks are folded into spaces, and block
scalars, which keep their lines or fold them. Each reader takes the place where the scalar starts
and gives its text and the place after it. -/

namespace EngineTrials.Yaml

/-- White space inside a scalar that has been read and not yet been written. -/
structure Gap where
  /-- The blanks before the first line break. -/
  blanks : List Char
  firstBreak : List Char
  moreBreaks : List Char
  /-- Whether there was a line break. -/
  broken : Bool

namespace Gap

def none : Gap := ⟨[], [], [], false⟩

/-- What the white space stands for: one line break is a space, and further ones are kept. -/
def written (g : Gap) : List Char :=
  if g.broken then
    if g.firstBreak = ['\n'] then if g.moreBreaks = [] then [' '] else g.moreBreaks
    else g.firstBreak ++ g.moreBreaks
  else g.blanks

/-- The white space with one more line break. -/
def addBreak (g : Gap) (lineBreak : List Char) : Gap :=
  if g.broken then { g with moreBreaks := g.moreBreaks ++ lineBreak }
  else { g with blanks := [], firstBreak := lineBreak, broken := true }

/-- Reads white space. After a line break a tab left of `indent` is not allowed. -/
def read (indent : Int) : Nat → Cursor → Gap → Option (Cursor × Gap)
  | 0, _, _ => Option.none
  | fuel + 1, c, g =>
    match c.text with
    | [] => some (c, g)
    | ch :: _ =>
      if isBlank ch then
        if g.broken then
          if ch = '\t' ∧ (c.column : Int) < indent then Option.none
          else read indent fuel (c.skip 1) g
        else read indent fuel (c.skip 1) { g with blanks := g.blanks ++ [ch] }
      else if isBreak ch then
        let (lineBreak, c) := c.readBreak
        read indent fuel c (g.addBreak lineBreak)
      else some (c, g)

end Gap

/-- The characters that have a meaning inside brackets. -/
def isFlowIndicator (c : Char) : Bool :=
  c == ',' || c == '[' || c == ']' || c == '\x7b' || c == '\x7d'

/-- Whether a plain scalar ends before this text. -/
def endsPlain (inFlow : Bool) : List Char → Bool
  | [] => true
  | ':' :: rest => atBlankOrEnd rest
  | c :: _ => isBlank c || isBreak c || (inFlow && isFlowIndicator c)

/-- Whether a colon stands here that no plain scalar inside brackets may hold. -/
def isStrayColon (inFlow : Bool) : List Char → Bool
  | ':' :: c :: _ => inFlow && (isFlowIndicator c || c == '?')
  | _ => false

/-- Reads the characters of a plain scalar up to a blank or its end. -/
def plainRun (inFlow : Bool) : Nat → Cursor → List Char → Option (Cursor × List Char)
  | 0, _, _ => none
  | fuel + 1, c, text =>
    if isStrayColon inFlow c.text then none
    else if endsPlain inFlow c.text then some (c, text)
    else plainRun inFlow fuel (c.skip 1) (text ++ c.text.take 1)

/-- Reads a plain scalar that may go on over lines indented by `indent`; the last part of the
answer says whether a line break follows it. -/
def plain (inFlow : Bool) (indent : Int) : Nat → Cursor → List Char → Gap →
    Option (List Char × Cursor × Bool)
  | 0, _, _, _ => none
  | fuel + 1, c, text, gap =>
    if (c.column = 0 ∧ atDocumentMark c.text) ∨ c.text.head? = some '#' then
      some (text, c, gap.broken)
    else do
      let (next, run) ← plainRun inFlow (c.text.length + 1) c []
      let (text, gap) := if run = [] then (text, gap) else (text ++ gap.written ++ run, Gap.none)
      match next.text with
      | [] => some (text, next, gap.broken)
      | ch :: _ =>
        if isBlank ch || isBreak ch then
          let (after, gap) ← Gap.read indent (next.text.length + 1) next gap
          if !inFlow ∧ (after.column : Int) < indent then some (text, after, gap.broken)
          else plain inFlow indent fuel after text gap
        else some (text, next, gap.broken)

def hexValue? (digits : List Char) : Option Nat :=
  digits.foldlM (fun n d => (Json.hexValue? d).map (n * 16 + ·)) 0

/-- The character with a code of `n` hexadecimal digits, and the place after it. -/
def hexEscape? (n : Nat) (c : Cursor) : Option (Char × Cursor) := do
  let digits := c.text.take n
  let code ← hexValue? digits
  if digits.length = n ∧ code.isValidChar then some (Char.ofNat code, c.skip n) else none

/-- The character that a letter after a backslash stands for, and the place after it. -/
def escape? (c : Cursor) : Option (Char × Cursor) :=
  match c.text with
  | [] => none
  | letter :: _ =>
    let after := c.skip 1
    match letter with
    | '0' => some ('\x00', after)
    | 'a' => some ('\x07', after)
    | 'b' => some ('\x08', after)
    | 't' => some ('\t', after)
    | '\t' => some ('\t', after)
    | 'n' => some ('\n', after)
    | 'v' => some ('\x0b', after)
    | 'f' => some ('\x0c', after)
    | 'r' => some ('\r', after)
    | 'e' => some ('\x1b', after)
    | ' ' => some (' ', after)
    | '"' => some ('"', after)
    | '/' => some ('/', after)
    | '\\' => some ('\\', after)
    | 'N' => some ('\u0085', after)
    | '_' => some ('\u00a0', after)
    | 'L' => some ('\u2028', after)
    | 'P' => some ('\u2029', after)
    | 'x' => hexEscape? 2 after
    | 'u' => hexEscape? 4 after
    | 'U' => hexEscape? 8 after
    | _ => none

/-- Reads the characters of a quoted scalar up to white space or its last quote. The last part of
the answer says whether an escaped line break was met. -/
def quotedRun (mark : Char) : Nat → Cursor → List Char → Option (Cursor × List Char × Bool)
  | 0, _, _ => none
  | fuel + 1, c, text =>
    match c.text with
    | [] => some (c, text, false)
    | ch :: rest =>
      if isBlank ch || isBreak ch then some (c, text, false)
      else if ch = mark then
        if mark = '\'' ∧ rest.head? = some '\'' then
          quotedRun mark fuel (c.skip 2) (text ++ ['\''])
        else some (c, text, false)
      else if ch = '\\' ∧ mark = '"' then
        if (rest.head?.map isBreak).getD false then some ((c.skip 1).skipBreak, text, true)
        else do
          let (escaped, after) ← escape? (c.skip 1)
          quotedRun mark fuel after (text ++ [escaped])
      else quotedRun mark fuel (c.skip 1) (text ++ [ch])

/-- Reads a quoted scalar whose first quote is gone. -/
def quoted (mark : Char) : Nat → Cursor → List Char → Option (List Char × Cursor)
  | 0, _, _ => none
  | fuel + 1, c, text =>
    if (c.column = 0 ∧ atDocumentMark c.text) ∨ c.text = [] then none
    else do
      let (c, text, escapedBreak) ← quotedRun mark (c.text.length + 1) c text
      if c.text.head? = some mark then some (text, c.skip 1)
      else
        let (c, gap) ← Gap.read 0 (c.text.length + 1) c { Gap.none with broken := escapedBreak }
        quoted mark fuel c (text ++ gap.written)

/-- How the line breaks at the end of a block scalar count. -/
inductive Chomping
  /-- One of them is kept. -/
  | clip
  /-- None is kept. -/
  | strip
  /-- All are kept. -/
  | keep
  deriving DecidableEq

/-- Reads the indentation of a block scalar's next line and the empty lines before it. With
`indent` zero the indentation is not known yet, and spaces of any number count. -/
def blockBreaks (indent : Nat) : Nat → Cursor → List Char → Nat →
    Option (Cursor × List Char × Nat)
  | 0, _, _, _ => none
  | fuel + 1, c, breaks, widest =>
    let spaces := (c.text.takeWhile (· == ' ')).length
    let c := c.skip (if indent = 0 then spaces else min spaces (indent - c.column))
    let widest := max widest c.column
    match c.text with
    | [] => some (c, breaks, widest)
    | ch :: _ =>
      if ch = '\t' ∧ (indent = 0 ∨ c.column < indent) then none
      else if isBreak ch then
        let (lineBreak, c) := c.readBreak
        blockBreaks indent fuel c (breaks ++ lineBreak) widest
      else some (c, breaks, widest)

/-- The white space between two lines of a block scalar: a folded one turns a single break between
two lines that do not start with a blank into a space. -/
def lineJoint (folds : Bool) (lastBreak breaks : List Char) (blankBefore blankHere : Bool) :
    List Char :=
  if folds ∧ lastBreak = ['\n'] ∧ !blankBefore ∧ !blankHere then
    if breaks = [] then [' '] else breaks
  else lastBreak ++ breaks

/-- Reads the lines of a block scalar: its text without the breaks at the end, the break after the
last line, the further breaks, and the place after all. -/
def blockLines (folds : Bool) (indent : Nat) : Nat → Cursor → List Char → List Char → List Char →
    Bool → Option (List Char × List Char × List Char × Cursor)
  | 0, _, _, _, _, _ => none
  | fuel + 1, c, text, lastBreak, breaks, blankBefore =>
    if c.column = indent ∧ c.text ≠ [] then do
      let blankHere := (c.text.head?.map isBlank).getD false
      let joint := lineJoint folds lastBreak breaks blankBefore blankHere
      let line := c.text.takeWhile fun ch => !isBreak ch
      let (lineBreak, c) := c.skipLine.readBreak
      let (c, breaks, _) ← blockBreaks indent (c.text.length + 1) c [] 0
      blockLines folds indent fuel c (text ++ joint ++ line) lineBreak breaks blankHere
    else some (text, lastBreak, breaks, c)

def chomping? (c : Cursor) : Option (Chomping × Cursor) :=
  match c.text with
  | '+' :: _ => some (.keep, c.skip 1)
  | '-' :: _ => some (.strip, c.skip 1)
  | _ => none

/-- The indentation digit at a place; zero if there is none. -/
def increment? (c : Cursor) : Option (Nat × Cursor) :=
  match c.text with
  | '0' :: _ => none
  | d :: _ => if d.isDigit then some (d.toNat - '0'.toNat, c.skip 1) else some (0, c)
  | [] => some (0, c)

/-- The chomping and the indentation that a block scalar names after its first character, in
either order. -/
def blockHeader? (c : Cursor) : Option (Chomping × Nat × Cursor) :=
  match chomping? c with
  | some (chomping, c) => (increment? c).map fun (n, c) => (chomping, n, c)
  | none => do
    let (n, c) ← increment? c
    if n = 0 then some (.clip, 0, c)
    else
      match chomping? c with
      | some (chomping, c) => some (chomping, n, c)
      | none => some (.clip, n, c)

/-- The place after the blanks and the comment at the end of a line, if nothing else stands
there. -/
def restOfLine? (c : Cursor) : Option Cursor :=
  let c := c.skipWhile isBlank
  let c := if c.text.head? = some '#' then c.skipLine else c
  if atBreakOrEnd c.text then some c.skipBreak else none

/-- Reads a block scalar after its first character; the lines around it are indented by `outer`. -/
def block (folds : Bool) (outer : Int) (c : Cursor) : Option (List Char × Cursor) := do
  let (chomping, increment, c) ← blockHeader? c
  let c ← restOfLine? c
  let named := if increment = 0 then 0 else outer.toNat + increment
  let (c, breaks, widest) ← blockBreaks named (c.text.length + 1) c [] 0
  let indent := if named = 0 then max (max widest (outer + 1).toNat) 1 else named
  let (text, lastBreak, breaks, c) ← blockLines folds indent (c.text.length + 1) c [] [] breaks false
  match chomping with
  | .strip => some (text, c)
  | .clip => some (text ++ lastBreak, c)
  | .keep => some (text ++ lastBreak ++ breaks, c)

end EngineTrials.Yaml
