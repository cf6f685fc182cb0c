import EngineTrials.Path
import EngineTrials.Fixture.Expectation
import EngineTrials.Text.Shown

/-! What an engine reports for one execution: how it ended, and all it said on the way. -/

namespace EngineTrials

/-- An assertion that did not hold. -/
structure Mismatch where
  /-- The primitive that failed. -/
  assertion : String
  expected : String
  actual : String
  description : Option String
  deriving DecidableEq, Repr

def Mismatch.message (m : Mismatch) : String :=
  let description := match m.description with
    | some text => text ++ ": "
    | none => ""
  m.assertion ++ ": " ++ description ++ "expected " ++ m.expected ++ " but got " ++ m.actual

/-- The value that a script completed with: its kind, and the text of a string or a rendering of
any other value. -/
structure Completion where
  kind : String
  display : String
  deriving DecidableEq, Repr

namespace Completion

/-- The completion of a script without a value. -/
def undefined : Completion := ⟨"undefined", "undefined"⟩

def isSuccess (c : Completion) : Bool := c.kind == "string" && c.display == successSentinel

/-- The value in words; a string is shown between quotes. -/
def message (c : Completion) : String :=
  if c.kind = "string" then Text.shown c.display else c.display

end Completion

/-- An exception that the script did not catch. -/
structure Exception where
  name : String
  message : String
  stack : Option String
  /-- The file that was being executed. -/
  file : Option Path
  deriving DecidableEq, Repr

def Exception.display (e : Exception) : String :=
  let place := match e.file with
    | some file => " (in " ++ file.text ++ ")"
    | none => ""
  e.name ++ ": " ++ e.message ++ place

/-- All that a fixture reported besides how it ended. -/
structure Log where
  mismatches : List Mismatch := []
  /-- The messages of status records. -/
  status : List String := []
  /-- The messages of trace records. -/
  trace : List String := []
  /-- Other lines on the standard output. -/
  output : List String := []
  /-- The lines on the error output. -/
  stderr : List String := []
  deriving DecidableEq, Repr

/-- How an execution ended. -/
inductive Ending
  | completed (value : Completion)
  | threw (exception : Exception)
  /-- Stopped after this many microseconds. -/
  | timedOut (limitMicros : Nat)
  | crashed (reason : String)
  deriving DecidableEq, Repr

/-- What an engine reports for one execution. -/
structure Outcome where
  ending : Ending
  log : Log
  deriving DecidableEq, Repr

/-- Why an engine could not be driven. -/
inductive EngineFault
  | spawn (program : String) (message : String)
  | io (message : String)
  | protocol (line : String) (message : String)
  deriving DecidableEq, Repr

def EngineFault.message : EngineFault → String
  | .spawn program message => "failed to spawn engine '" ++ program ++ "': " ++ message
  | .io message => "engine I/O error: " ++ message
  | .protocol line message => "malformed harness record '" ++ line ++ "': " ++ message

end EngineTrials
