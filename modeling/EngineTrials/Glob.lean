import EngineTrials.Path
import EngineTrials.Text.Blank

/-! Glob patterns over paths. A pattern is read as tokens from left to right; a text is matched by
one pass over its suffixes for each token, so a match costs no more than the product of the two
lengths. `Matches` is the reading of the tokens that the passes compute.

A glob stands for a regular expression, `Glob.expression`, which has a piece for each token. What
the tokens accept is what a search with the expression finds, as `Glob.selects_eq_search` has it for
the patterns of `Pattern`. An expression may be of any length. -/

namespace EngineTrials

open Text (pieces)

/-- A token of a glob pattern. -/
inductive GlobToken
  /-- Nothing, or any text on one line that ends in a slash. -/
  | folders
  /-- Any text on one line. -/
  | anything
  /-- Any text without a slash. -/
  | within
  /-- One character other than a slash. -/
  | one
  /-- The character itself. -/
  | literal (c : Char)
  deriving DecidableEq, Repr

namespace GlobToken

/-- The tokens of a pattern, for each the first of these readings that fits: two stars and a slash,
two stars, one star, a question mark, any character. -/
def ofPattern : List Char → List GlobToken
  | [] => []
  | '*' :: '*' :: '/' :: rest => .folders :: ofPattern rest
  | '*' :: '*' :: rest => .anything :: ofPattern rest
  | '*' :: rest => .within :: ofPattern rest
  | '?' :: rest => .one :: ofPattern rest
  | c :: rest => .literal c :: ofPattern rest

/-- The characters that have a meaning in an expression, or may have one in a class or in a mode. -/
def specials : List Char := "\\.+*?()|[]\x7b\x7d^$#&-~".toList

/-- The piece of a regular expression for a token. -/
def expression : GlobToken → List Char
  | .folders => "(?:.*/)?".toList
  | .anything => ".*".toList
  | .within => "[^/]*".toList
  | .one => "[^/]".toList
  | .literal c => if c ∈ specials then ['\\', c] else [c]

def onLine (c : Char) : Bool := c != '\n'

def inName (c : Char) : Bool := c != '/'

def Stands : GlobToken → List Char → Prop
  | .folders, text => text = [] ∨ ∃ inner, text = inner ++ ['/'] ∧ inner.all onLine
  | .anything, text => text.all onLine
  | .within, text => text.all inName
  | .one, text => ∃ c, text = [c] ∧ inName c
  | .literal c, text => text = [c]

/-- What a list of tokens stands for. -/
inductive Matches : List GlobToken → List Char → Prop
  | nil : Matches [] []
  | cons {token : GlobToken} {tokens : List GlobToken} {first rest : List Char} :
      token.Stands first → Matches tokens rest → Matches (token :: tokens) (first ++ rest)

/-- For each suffix of a text, whether it is a character that satisfies `p` followed by a suffix
that `row` accepts. -/
def stepRow (p : Char → Bool) : List Char → List Bool → List Bool
  | c :: text, _ :: row => (p c && row.headD false) :: stepRow p text row
  | _, _ => [false]

/-- For each suffix of a text, whether it is a run of characters that satisfy `p` followed by a
suffix that `row` accepts. -/
def runRow (p : Char → Bool) : List Char → List Bool → List Bool
  | c :: text, b :: row =>
    let rest := runRow p text row
    (b || (p c && rest.headD false)) :: rest
  | _, row => row

/-- For each suffix of a text, whether the token followed by what `row` accepts stands for it. -/
def row (text : List Char) : GlobToken → List Bool → List Bool
  | .folders, row => List.zipWith (· || ·) row (runRow onLine text (stepRow (· == '/') text row))
  | .anything, row => runRow onLine text row
  | .within, row => runRow inName text row
  | .one, row => stepRow inName text row
  | .literal c, row => stepRow (· == c) text row

/-- For each suffix of a text, whether it is empty. -/
def emptyRow : List Char → List Bool
  | [] => [true]
  | _ :: text => false :: emptyRow text

def accepts (tokens : List GlobToken) (text : List Char) : Bool :=
  (tokens.foldr (row text) (emptyRow text)).headD false

end GlobToken

/-- A glob pattern: the trimmed text, which is not empty. -/
structure Glob where
  pattern : String
  deriving DecidableEq, Repr

namespace Glob

/-- The glob that a text spells, if it spells one. -/
def ofText? (text : String) : Option Glob :=
  let pattern := Text.trimmed text
  if pattern.isEmpty then none else some ⟨pattern⟩

theorem ofText?_eq_some {text : String} (h : Text.trimmed text ≠ "") :
    ofText? text = some ⟨Text.trimmed text⟩ := by
  rw [ofText?, if_neg (by simpa using h)]

/-- A text without the occurrences of `./` at its start. -/
def dropHere : List Char → List Char
  | '.' :: '/' :: rest => dropHere rest
  | text => text

/-- A relative path as globs see it: slashes for backslashes, and no `./` at the start. -/
def normalize (p : Path) : List Char :=
  dropHere (p.text.toList.map fun c => if c = '\\' then '/' else c)

/-- The part of a text after its last slash. -/
def lastName (text : List Char) : List Char := ((pieces '/' text).getLast?).getD text

/-- Whether a pattern without a slash, which is tried on the file name as well. -/
def isNameOnly (g : Glob) : Bool := !g.pattern.toList.contains '/'

def tokens (g : Glob) : List GlobToken := GlobToken.ofPattern g.pattern.toList

/-- The regular expression that the glob stands for, from the start of a text to its end. -/
def expression (g : Glob) : String :=
  String.ofList ('^' :: g.tokens.flatMap GlobToken.expression ++ ['$'])

def selects (g : Glob) (relative : Path) : Bool :=
  let text := normalize relative
  GlobToken.accepts g.tokens text ||
    (g.isNameOnly && GlobToken.accepts g.tokens (lastName text))

end Glob

end EngineTrials
