import EngineTrials.Settings.Basic
import EngineTrials.Yaml.Decode

/-! Settings read from YAML text. Every key may be left out, and keys of other names are passed
over. -/

namespace EngineTrials

open Yaml (Document Node required defaulted)

/-- Pairs without those whose name comes again later. -/
def keepLast : List (String × String) → List (String × String)
  | [] => []
  | pair :: rest =>
    if rest.any fun later => later.1 == pair.1 then keepLast rest else pair :: keepLast rest

def Gate.ofYaml? (d : Document) (n : Node) : Option Gate := do
  let fields ← d.fields? ["capability", "marker"] n
  return { capability := ← required fields "capability" d.text?
           marker := ← required fields "marker" d.text? }

def EngineSettings.ofYaml? (d : Document) (n : Node) : Option EngineSettings := do
  let fields ← d.fields? ["program", "args", "env", "capabilities"] n
  let default : EngineSettings := {}
  let environment ← defaulted fields "env" default.environment d.texts?
  return { program := ← defaulted fields "program" default.program d.text?
           arguments := ← defaulted fields "args" default.arguments (d.list? d.text?)
           environment := sortByName (keepLast environment)
           capabilities := ← defaulted fields "capabilities" default.capabilities
             (d.list? d.text?) }

namespace Settings

def keys : List String :=
  ["engine", "source_root", "timeout_ms", "jobs", "extensions", "exclude", "filter", "skip_list",
    "implicit_includes", "gates", "require_success_sentinel", "trace"]

def path? (d : Document) (n : Node) : Option Path := (d.text? n).map Path.mk

def ofNode? (d : Document) (n : Node) : Option Settings := do
  let fields ← d.fields? keys n
  let default : Settings := {}
  return {
    engine := ← defaulted fields "engine" default.engine (EngineSettings.ofYaml? d)
    sourceRoot := ← defaulted fields "source_root" default.sourceRoot (path? d)
    timeoutMillis := ← defaulted fields "timeout_ms" default.timeoutMillis d.count?
    jobs := ← defaulted fields "jobs" default.jobs d.count?
    extensions := ← defaulted fields "extensions" default.extensions (d.list? d.text?)
    exclude := ← defaulted fields "exclude" default.exclude (d.list? d.text?)
    filter := ← defaulted fields "filter" default.filter (d.nullable d.text?)
    skipList := ← defaulted fields "skip_list" default.skipList (d.nullable (path? d))
    implicitIncludes := ← defaulted fields "implicit_includes" default.implicitIncludes
      (d.list? d.text?)
    gates := ← defaulted fields "gates" default.gates (d.list? (Gate.ofYaml? d))
    requireSentinel := ← defaulted fields "require_success_sentinel" default.requireSentinel d.bool?
    trace := ← defaulted fields "trace" default.trace d.bool? }

/-- The settings that a YAML text spells; a blank text spells the defaults. -/
def ofYaml? (text : String) : Option Settings :=
  if (Text.trimmed text).isEmpty then some {}
  else do
    let d ← Document.ofText? text
    match d.root with
    | some n => ofNode? d n
    | none => some {}

def ofFile (fs : FileSystem) (path : Path) : Except SettingsFault Settings :=
  match fs.readText path with
  | .error fault => .error (.unreadable path fault)
  | .ok text =>
    match ofYaml? text with
    | some s => .ok s
    | none => .error (.malformed path)

end Settings

end EngineTrials
