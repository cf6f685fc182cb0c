import EngineTrials.FileSystem.Basic
import EngineTrials.Fixture.Basic

/-! The settings of a run, with a default for each, and the checks that they have to pass before a
run starts. -/

namespace EngineTrials

/-- How the engine is started. -/
structure EngineSettings where
  program : String := "rhino"
  /-- What stands before the script on the engine's command line. -/
  arguments : List String := []
  /-- Further variables of the engine's environment, by name. -/
  environment : List (String × String) := []
  /-- What this engine can do. -/
  capabilities : List String := []
  deriving DecidableEq, Repr

/-- The time limit of a fixture in milliseconds, unless the settings say otherwise. -/
def defaultTimeoutMillis : Nat := 10000

/-- The settings of a run. -/
structure Settings where
  engine : EngineSettings := {}
  /-- The folder that load directives start from. -/
  sourceRoot : Path := ⟨"."⟩
  timeoutMillis : Nat := defaultTimeoutMillis
  /-- How many fixtures run at the same time. -/
  jobs : Nat := 1
  /-- The extensions of fixtures. -/
  extensions : List String := ["js"]
  /-- Globs for the files that are no fixtures. -/
  exclude : List String := []
  /-- A glob for the fixtures that are wanted. -/
  filter : Option String := none
  /-- The file with the skip list. -/
  skipList : Option Path := none
  /-- The names of the helper files that are loaded without being asked for. -/
  implicitIncludes : List String := ["shell.js"]
  gates : List Gate := [⟨"debug-properties", "RHINO_DEBUG_PROPERTIES"⟩]
  /-- Whether every fixture has to complete with the success sentinel. -/
  requireSentinel : Bool := false
  /-- Whether trace records are wanted. -/
  trace : Bool := false
  deriving DecidableEq, Repr

/-- A setting that a run cannot honour. -/
inductive InvalidSetting
  | noTime
  | noJobs
  | noExtensions
  | noProgram
  deriving DecidableEq, Repr

namespace InvalidSetting

def field : InvalidSetting → String
  | .noTime => "timeout_ms"
  | .noJobs => "jobs"
  | .noExtensions => "extensions"
  | .noProgram => "engine.program"

def reason : InvalidSetting → String
  | .noTime => "must be greater than zero"
  | .noJobs => "must be at least 1"
  | .noExtensions => "at least one fixture extension is required"
  | .noProgram => "engine program must not be empty"

end InvalidSetting

/-- Why settings cannot be read or used. -/
inductive SettingsFault
  /-- A file cannot be read. -/
  | unreadable (path : Path) (fault : FileFault)
  /-- A file spells no settings. -/
  | malformed (path : Path)
  /-- A glob is blank. -/
  | emptyGlob
  | invalid (setting : InvalidSetting)
  deriving DecidableEq, Repr

/-- The text of a fault; what is wrong in a malformed file is not told. -/
def SettingsFault.message : SettingsFault → String
  | .unreadable path fault => "failed to read " ++ path.text ++ ": " ++ fault.message
  | .malformed path => "invalid config file " ++ path.text ++ ":"
  | .emptyGlob => "invalid glob '': empty pattern"
  | .invalid setting => "invalid value for " ++ setting.field ++ ": " ++ setting.reason

namespace Settings

/-- The first setting that a run cannot honour. -/
def firstInvalid? (s : Settings) : Option InvalidSetting :=
  if s.timeoutMillis = 0 then some .noTime
  else if s.jobs = 0 then some .noJobs
  else if s.extensions = [] then some .noExtensions
  else if (Text.trimmed s.engine.program).isEmpty then some .noProgram
  else none

/-- Checks that a run can honour the settings. -/
def validate (s : Settings) : Except SettingsFault Unit :=
  match s.firstInvalid? with
  | some setting => .error (.invalid setting)
  | none => .ok ()

end Settings

end EngineTrials
