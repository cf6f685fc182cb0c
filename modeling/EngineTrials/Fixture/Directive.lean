import EngineTrials.Text.Blank
import EngineTrials.Text.Search
import EngineTrials.Text.Quote

/-! Load directives: lines of a file that begin with a call of `load` on one quoted path. -/

namespace EngineTrials

open Text

/-- A line that asks for another file. -/
structure LoadDirective where
  /-- The path between the quotes. -/
  path : String
  /-- The number of the line, from one. -/
  line : Nat
  deriving DecidableEq, Repr

/-- The path of the directive at the start of a text, if there is one. -/
def directivePath? (text : List Char) : Option (List Char) := do
  let call ← after? "load" (skipBlanks text)
  let argument ← after? "(" (skipBlanks call)
  let (path, rest) ← quoted? (skipBlanks argument)
  if path = [] then none
  else
    let _ ← after? ")" (skipBlanks rest)
    some path

/-- The load directives of a source, in order. -/
def loadDirectives (source : String) : List LoadDirective :=
  ((lineStarts source.toList).zipIdx 1).filterMap fun (text, line) =>
    (directivePath? text).map fun path => ⟨String.ofList path, line⟩

end EngineTrials
