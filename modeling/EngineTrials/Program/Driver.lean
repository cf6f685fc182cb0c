import EngineTrials.Engine.Record
import EngineTrials.Program.Basic
import EngineTrials.Program.Prelude

/-! The complete text that an engine runs for one fixture: the prelude, its settings, and the program
as a literal. -/

namespace EngineTrials

def driverSettings (trace : Bool) (marker : String) : Json :=
  .ofMembers [("trace", .bool trace), ("marker", .ofString marker)]

/-- What follows the prelude: a line that sets it up, and a line that runs the program. -/
def driverCalls (script : LoadedScript) (trace : Bool) (marker : String) : String :=
  "__harness.configure(" ++ scriptLiteral (driverSettings trace marker) ++ ");\n" ++
    "__harness.run(" ++ scriptLiteral (Program.assemble script).toJson ++ ");\n"

def driverSource (script : LoadedScript) (trace : Bool) (marker : String) : String :=
  preludeSource ++ driverCalls script trace marker

end EngineTrials
