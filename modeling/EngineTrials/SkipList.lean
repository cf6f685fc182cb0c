import EngineTrials.Glob

/-! Skip lists: one glob a line, with an optional reason after a number sign. Blank lines and lines
that start with a number sign say nothing. -/

namespace EngineTrials

open Text

/-- A line of a skip list. -/
structure SkipEntry where
  glob : Glob
  reason : Option String
  deriving DecidableEq, Repr

/-- The fixtures that are not to be run. -/
structure SkipList where
  entries : List SkipEntry
  deriving DecidableEq, Repr

namespace SkipList

def empty : SkipList := ⟨[]⟩

def nonempty? (text : List Char) : Option String :=
  if text = [] then none else some (String.ofList text)

/-- A trimmed line cut at its first number sign: the pattern and the reason. -/
def splitReason (line : List Char) : List Char × Option String :=
  match line.dropWhile (· != '#') with
  | [] => (line, none)
  | _ :: reason => (trim (line.takeWhile (· != '#')), nonempty? (trim reason))

/-- The lines of a text that say something, trimmed. -/
def entryLines (text : String) : List (List Char) :=
  ((lines text.toList).map trim).filter fun line => !line.isEmpty && line.head? != some '#'

/-- The skip list that a text spells, if every pattern is one. -/
def parse? (text : String) : Option SkipList :=
  ((entryLines text).mapM fun line =>
    let (pattern, reason) := splitReason line
    (Glob.ofText? (String.ofList pattern)).map fun glob => SkipEntry.mk glob reason).map SkipList.mk

/-- Why a fixture is skipped: the reason, or else the pattern, of the first entry that selects
it. -/
def reasonFor? (list : SkipList) (relative : Path) : Option String :=
  (list.entries.find? fun e => e.glob.selects relative).map fun e =>
    "skip list: " ++ e.reason.getD e.glob.pattern

end SkipList

end EngineTrials
