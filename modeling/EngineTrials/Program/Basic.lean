import EngineTrials.Fixture.Declaration
import EngineTrials.Json.Basic
import EngineTrials.Load.Basic
import EngineTrials.Program.Lines

/-! The one program that a loaded script is evaluated as: its segments one after the other, with a
call right before the body that puts the harness's primitives back in place. For each segment it is
known which lines are its own. -/

namespace EngineTrials

open ScriptText

/-- The lines of a file in a program. -/
structure LineRange where
  path : String
  /-- The number of its first line, from one. -/
  start : Nat
  /-- The number of its lines. -/
  lines : Nat
  deriving DecidableEq, Repr

def LineRange.has (r : LineRange) (line : Nat) : Bool :=
  r.start ≤ line && line < r.start + r.lines

/-- A program. -/
structure Program where
  source : String
  ranges : List LineRange
  deriving DecidableEq, Repr

/-- JSON text that is a JavaScript literal as well: the two separators that end a line there are
written as escapes. -/
def scriptLiteral (j : Json) : String :=
  String.ofList ((j.render .compact 0).flatMap fun c =>
    if c = '\u2028' then ['\\', 'u', '2', '0', '2', '8']
    else if c = '\u2029' then ['\\', 'u', '2', '0', '2', '9']
    else [c])

/-- The line that puts the primitives back, except those that the body declares itself. -/
def reinstallLine (body : String) : String :=
  "__harness.reinstall(" ++ scriptLiteral (.ofStrings (declaredPrimitives body)) ++ ");\n"

def terminated (source : String) : String :=
  if endsInTerminator source.toList then source else source ++ "\n"

namespace Program

def empty : Program := ⟨"", []⟩

/-- The program and the number of its next line after one more segment. -/
def append (state : Program × Nat) (segment : Segment) : Program × Nat :=
  let (program, line) := state
  let lines := lineCount segment.source.toList
  (⟨program.source ++ terminated segment.source,
    program.ranges ++ [⟨segment.path.text, line, lines⟩]⟩, line + lines)

/-- The program and the number of its next line after the line before the body. -/
def appendReinstall (state : Program × Nat) (body : Segment) : Program × Nat :=
  ({ state.1 with source := state.1.source ++ reinstallLine body.source }, state.2 + 1)

def assemble (script : LoadedScript) : Program :=
  let before := script.dependencies.foldl append (empty, 1)
  let withBody := match script.body? with
    | some body => append (appendReinstall before body) body
    | none => before
  (script.epilogue.foldl append withBody).1

/-- The lines of the file that a line belongs to. -/
def segmentAt? (program : Program) (line : Nat) : Option LineRange :=
  program.ranges.find? fun r => r.has line

def toJson (program : Program) : Json :=
  .ofMembers [("source", .ofString program.source),
    ("segments", .array (program.ranges.map fun r =>
      .ofMembers [("path", .ofString r.path), ("start", .ofNat r.start),
        ("lines", .ofNat r.lines)]))]

end Program

end EngineTrials
