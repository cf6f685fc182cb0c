import EngineTrials.Text.Blank
import EngineTrials.Text.Search

/-! Functions declared at the start of a line: those that replace one of the harness's primitives,
and the entry points of a benchmark. -/

namespace EngineTrials

open Text

/-- A character that may start the name of a function. -/
def isNameStart (c : Char) : Bool := c.isAlpha || c == '_' || c == '$'

/-- A character that may continue the name of a function. -/
def isNameChar (c : Char) : Bool := c.isAlphanum || c == '_' || c == '$'

/-- What stands between `function` and the name: a star with blanks around it, or at least one
blank. -/
def afterFunction? (text : List Char) : Option (List Char) :=
  match skipBlanks text with
  | '*' :: rest => some (skipBlanks rest)
  | rest => if rest.length = text.length then none else some rest

/-- The name of the function declared at the start of a text, up to its parameter list. Names with
letters beyond ASCII are not read. -/
def declaredFunction? (text : List Char) : Option (List Char) := do
  let name ← afterFunction? (← after? "function" (skipBlanks text))
  match name with
  | [] => none
  | c :: _ =>
    if isNameStart c then
      let _ ← after? "(" (skipBlanks (name.dropWhile isNameChar))
      some (name.takeWhile isNameChar)
    else none

/-- The names that the harness gives to every fixture. -/
def primitives : List String :=
  ["assertEquals", "assertTrue", "assertFalse", "reportCompare", "enterFunc", "exitFunc",
    "printStatus", "printBugNumber", "inSection", "load"]

/-- The primitives that a source declares itself, in the order of `primitives`. -/
def declaredPrimitives (source : String) : List String :=
  let declared := (lineStarts source.toList).filterMap declaredFunction?
  primitives.filter fun name => declared.contains name.toList

/-- The name of the entry point declared at the start of a text: `function`, blanks, a name that
begins with `test`, and an empty parameter list. -/
def entryPoint? (text : List Char) : Option (List Char) := do
  let rest ← after? "function" (skipBlanks text)
  let name := skipBlanks rest
  if name.length = rest.length then none
  else
    let _ ← after? "test" name
    let parameters ← after? "(" (skipBlanks (name.dropWhile isNameChar))
    let _ ← after? ")" (skipBlanks parameters)
    some (name.takeWhile isNameChar)

/-- The items of a list, each at its first place only. -/
def firstOccurrences {α : Type} [BEq α] (items : List α) : List α :=
  items.foldl (fun seen a => if seen.contains a then seen else seen ++ [a]) []

/-- The entry points of a source, each once, in the order of their first declaration. -/
def entryPoints (source : String) : List String :=
  firstOccurrences (((lineStarts source.toList).filterMap entryPoint?).map String.ofList)

end EngineTrials
