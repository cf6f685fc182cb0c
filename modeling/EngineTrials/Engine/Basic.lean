import EngineTrials.Engine.Outcome
import EngineTrials.Load.Basic

/-! The seam to a JavaScript engine. An engine takes a script, the settings of the prelude and a time
limit; every call starts from a fresh global environment, so what it answers depends on these
alone. -/

namespace EngineTrials

/-- What an engine is asked to do. -/
structure Execution where
  script : LoadedScript
  /-- Whether trace records are wanted. -/
  trace : Bool
  /-- The time limit in milliseconds. -/
  timeoutMillis : Nat
  deriving DecidableEq, Repr

/-- What comes of an execution. -/
inductive Response
  | outcome (o : Outcome)
  | fault (f : EngineFault)
  /-- The adapter to the engine gave up in the middle. -/
  | panicked
  deriving DecidableEq, Repr

/-- An engine. -/
structure Engine where
  name : String
  /-- Whether the engine has a capability. -/
  supports : String → Bool
  execute : Execution → Response
  /-- The microseconds that the fixture at a path takes with the engine, from first to last. -/
  elapsedMicros : Path → Nat := fun _ => 0

/-- An engine that answers by the first rule whose text occurs in the script, and completes without
a value if there is none. -/
def Engine.scripted (name : String) (capabilities : List String)
    (rules : List (String × Response)) : Engine where
  name := name
  supports := capabilities.contains
  execute e :=
    match rules.find? fun rule => Text.contains e.script.concatenated rule.1 with
    | some rule => rule.2
    | none => .outcome ⟨.completed .undefined, {}⟩

end EngineTrials
