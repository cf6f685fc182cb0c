import EngineTrials.Json.Basic
import EngineTrials.Settings.Basic

/-! Settings as JSON. -/

namespace EngineTrials

open Json (ofString ofOption ofNat ofStrings ofMembers)

def Gate.toJson (g : Gate) : Json :=
  ofMembers [("capability", ofString g.capability), ("marker", ofString g.marker)]

def EngineSettings.toJson (s : EngineSettings) : Json :=
  ofMembers [("program", ofString s.program), ("args", ofStrings s.arguments),
    ("env", ofMembers (s.environment.map fun v => (v.1, ofString v.2))),
    ("capabilities", ofStrings s.capabilities)]

def Settings.toJson (s : Settings) : Json :=
  ofMembers [("engine", s.engine.toJson), ("source_root", ofString s.sourceRoot.text),
    ("timeout_ms", ofNat s.timeoutMillis), ("jobs", ofNat s.jobs),
    ("extensions", ofStrings s.extensions), ("exclude", ofStrings s.exclude),
    ("filter", ofOption s.filter), ("skip_list", ofOption (s.skipList.map Path.text)),
    ("implicit_includes", ofStrings s.implicitIncludes),
    ("gates", .array (s.gates.map Gate.toJson)),
    ("require_success_sentinel", .bool s.requireSentinel), ("trace", .bool s.trace)]

end EngineTrials
