import EngineTrials.Text.Blank
import EngineTrials.Text.Search

/-! What a fixture says about its own success: a source whose last statement is the string
`success`, one that compares values, or one that only has to run to its end. -/

namespace EngineTrials

open Text

def successSentinel : String := "success"

/-- How a fixture reports success. -/
inductive Expectation
  | successSentinel
  | comparison
  | noCrash
  deriving DecidableEq, Repr

/-- The sentinel in double or in single quotes at the start of a text, dropped. -/
def afterSentinel? (text : List Char) : Option (List Char) :=
  (after? "\"success\"" text).or (after? "'success'" text)

/-- Whether a text is the sentinel as a last statement: blanks around it, at most one semicolon,
and then white space only. -/
def isSentinelStatement (text : List Char) : Bool :=
  match (afterSentinel? (skipBlanks text)).map skipBlanks with
  | none => false
  | some (';' :: rest) => rest.all isWhite
  | some rest => rest.all isWhite

/-- A character after which a statement may start. -/
def endsStatement (c : Char) : Bool := c == ';' || c == '}' || c == '\n'

/-- Whether the last statement of a source is the sentinel. -/
def endsInSentinel (source : List Char) : Bool :=
  (source :: suffixesAfter endsStatement source).any isSentinelStatement

/-- How the fixture with this source reports success. -/
def expectation (source : String) : Expectation :=
  if endsInSentinel source.toList then .successSentinel
  else if contains source "reportCompare" then .comparison
  else .noCrash

end EngineTrials
