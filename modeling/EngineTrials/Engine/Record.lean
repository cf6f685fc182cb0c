import EngineTrials.Verdict.Json
import EngineTrials.Json.Reader
import EngineTrials.Text.Blank

/-! The records that the prelude prints among a fixture's own output: a marker at the start of a
line, and then one JSON object. -/

namespace EngineTrials

open Text

def recordMarker : String := "@@harness"

/-- The marker of one execution. Its token keeps output that only looks like a record from being
read as one. -/
def recordMarkerFor (token : String) : String := recordMarker ++ ":" ++ token ++ " "

/-- A record. -/
inductive Record
  | assertion (mismatch : Mismatch)
  | status (message : String)
  | trace (message : String)
  | completed (value : Completion)
  | threw (exception : Exception)
  deriving DecidableEq, Repr

def Record.events : List String := ["assertion", "status", "trace", "completed", "threw"]

def Record.ofJson? (j : Json) : Option Record := do
  if j.canHold Json.depthLimit then
    let (tag, rest) ← j.tagged? "event"
    match ← Json.variant? events false tag with
    | "assertion" => return .assertion (← Mismatch.ofJson? rest)
    | "status" => return .status (← (← rest.fields? ["message"]).required "message" Json.text?)
    | "trace" => return .trace (← (← rest.fields? ["message"]).required "message" Json.text?)
    | "completed" =>
      let fields ← rest.fields? ["type", "value"]
      return .completed
        { kind := ← fields.required "type" Json.text?
          display := ← fields.required "value" Json.text? }
    | _ =>
      let fields ← rest.fields? ["name", "message", "stack", "file"]
      return .threw
        { name := ← fields.required "name" Json.text?
          message := ← fields.required "message" Json.text?
          stack := ← fields.optional "stack" Json.text?
          file := (← fields.optional "file" Json.text?).map Path.mk }
  else none

/-- What a line of output is. -/
inductive OutputLine
  /-- A line without the marker. -/
  | plain
  /-- A line with the marker that spells no record after it. -/
  | malformed (payload : String)
  | record (r : Record)
  deriving DecidableEq, Repr

/-- What follows a marker at the start of a line, carriage returns at the end left out. -/
def payload? (marker line : String) : Option (List Char) :=
  after? marker (dropEndWhile (· == '\r') line.toList)

def OutputLine.read (marker line : String) : OutputLine :=
  match payload? marker line with
  | none => .plain
  | some payload =>
    match (Json.parse? payload).bind Record.ofJson? with
    | some r => .record r
    | none => .malformed (String.ofList payload)

end EngineTrials
