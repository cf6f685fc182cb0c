import EngineTrials.Engine.Basic
import EngineTrials.Engine.Transcript
import EngineTrials.Program.Driver
import EngineTrials.Settings.Basic

/-! Engines that are programs of their own. Such an engine is started once for each execution, with
the driver in a file whose name comes last on its command line, and what it prints and how it ends
is read as an outcome. What starts it is a parameter, the host, which the outer layer of a program
fills in. -/

namespace EngineTrials

/-- What is started. -/
structure Command where
  program : String
  /-- What stands before the name of the driver's file. -/
  arguments : List String
  environment : List (String × String)
  /-- The text in the driver's file. -/
  driver : String
  /-- The time limit in milliseconds. -/
  timeoutMillis : Nat
  deriving DecidableEq, Repr

/-- What a program leaves behind. -/
structure Finished where
  stdout : List UInt8
  stderr : List UInt8
  exit : Exit
  deriving DecidableEq, Repr

/-- A host starts programs, or says why it cannot. -/
abbrev Host := Command → Except String Finished

def Finished.lines (f : Finished) : List (Stream × String) :=
  (Transcript.linesOfBytes f.stdout).map (Stream.stdout, ·) ++
    (Transcript.linesOfBytes f.stderr).map (Stream.stderr, ·)

/-- The outcome that a program reports with records of a marker. -/
def Finished.outcome (f : Finished) (marker : String) : Outcome :=
  (Transcript.collect marker f.lines).finish f.exit

def EngineSettings.command (s : EngineSettings) (marker : String) (e : Execution) : Command :=
  { program := s.program
    arguments := s.arguments
    environment := s.environment
    driver := driverSource e.script e.trace marker
    timeoutMillis := e.timeoutMillis }

/-- The engine that a host starts; `token` makes its records known from all else that is printed. -/
def Engine.ofHost (s : EngineSettings) (token : String) (host : Host) : Engine where
  name := s.program
  supports := s.capabilities.contains
  execute e :=
    let marker := recordMarkerFor token
    match host (s.command marker e) with
    | .error why => .fault (.spawn s.program why)
    | .ok finished => .outcome (finished.outcome marker)

end EngineTrials
