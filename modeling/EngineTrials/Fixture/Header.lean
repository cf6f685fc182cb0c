import EngineTrials.Text.Blank
import EngineTrials.Text.Search
import EngineTrials.Text.Quote

/-! The values that some suites give at the head of a fixture: a bug number and a summary, each
assigned to a variable at the start of a line. -/

namespace EngineTrials

open Text

/-- The header values of a fixture. -/
structure Header where
  bugNumber : Option String
  summary : Option String
  deriving DecidableEq, Repr

/-- What follows `var name =` at the start of a text, white space aside. -/
def assigned? (name : String) (text : List Char) : Option (List Char) := do
  let rest ← after? "var" (skipWhite text)
  let target := skipWhite rest
  if target.length = rest.length then none
  else
    let rest ← after? name target
    (after? "=" (skipWhite rest)).map skipWhite

def isBugNumberChar (c : Char) : Bool := c.isAlphanum || c == '_' || c == '-'

/-- The text without a quotation mark at its start. -/
def dropMark : List Char → List Char
  | [] => []
  | c :: rest => if c = '"' ∨ c = '\'' then rest else c :: rest

/-- The bug number assigned at the start of a text; the marks around it are optional. -/
def bugNumber? (text : List Char) : Option (List Char) := do
  let value := dropMark (← assigned? "BUGNUMBER" text)
  let number := value.takeWhile isBugNumberChar
  if number = [] then none
  else
    let _ ← after? ";" (skipWhite (dropMark (value.dropWhile isBugNumberChar)))
    some number

/-- The summary assigned at the start of a text. -/
def summary? (text : List Char) : Option (List Char) := do
  let (summary, _) ← quoted? (← assigned? "summary" text)
  some summary

/-- The header of a source: for each value, the first line that assigns it. -/
def header (source : String) : Header :=
  let starts := lineStarts source.toList
  { bugNumber := (starts.findSome? bugNumber?).map String.ofList
    summary := (starts.findSome? summary?).map String.ofList }

end EngineTrials
