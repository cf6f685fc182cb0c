import EngineTrials.CommandLine.Arguments
import EngineTrials.Engine.Basic
import EngineTrials.FileSystem.Edit
import EngineTrials.Settings.Yaml

/-! What a command line tool needs and what it leaves behind. -/

namespace EngineTrials

/-- What a tool works with. -/
structure Surroundings where
  files : FileSystem
  /-- The engine with given settings. -/
  engine : EngineSettings → Engine
  /-- The seconds that all runs of a call take together. -/
  seconds : Float := 0.0

/-- What a tool leaves behind. -/
structure CommandResult where
  exitCode : Nat
  stdout : String := ""
  stderr : String := ""
  /-- The files as the tool leaves them. -/
  files : FileSystem
  /-- The file that it has written, with its content. -/
  written : Option (Path × List UInt8) := none
  /-- All that an engine was asked to do. -/
  executions : List Execution := []

namespace CommandResult

/-- The exit code of a tool that could not do its work. -/
def setupFailure : Nat := 2

/-- The result of a tool that could not do its work. -/
def failed (files : FileSystem) (message : String) : CommandResult :=
  { exitCode := setupFailure, stderr := "Error: " ++ message ++ "\n", files }

/-- The result of a command line that asks for no work. -/
def stopped (files : FileSystem) (name version usage : String) : Stop → CommandResult
  | .help => { exitCode := 0, stdout := usage, files }
  | .version => { exitCode := 0, stdout := name ++ " " ++ version ++ "\n", files }
  | .fault f =>
    { exitCode := setupFailure, stderr := "error: " ++ f.message ++ "\n\n" ++ usage, files }

end CommandResult

def toolVersion : String := "0.1.0"

/-- The settings in the file that a command line names, or else the defaults. -/
def baseSettings (fs : FileSystem) (a : Arguments) : Except SettingsFault Settings :=
  match a.value? "config" with
  | some path => Settings.ofFile fs ⟨path⟩
  | none => .ok {}

/-- Engine settings with the program and the arguments that a command line gives. -/
def EngineSettings.override (s : EngineSettings) (a : Arguments) : EngineSettings :=
  { s with
    program := (a.value? "engine").getD s.program
    arguments := if a.has "engine-arg" then a.values "engine-arg" else s.arguments }

/-- The first of some paths that leads nowhere. -/
def firstMissing? (fs : FileSystem) (paths : List String) : Option String :=
  paths.find? fun path => !fs.hasPath ⟨path⟩

end EngineTrials
