import EngineTrials.Path

/-! A script that has been put together from files: what each file contributed, in the order of
execution, and why putting it together can fail. -/

namespace EngineTrials

/-- What one file contributed. -/
structure Segment where
  path : Path
  source : String
  deriving DecidableEq, Repr, Inhabited

/-- A script with everything it loads, and what runs after its body. -/
structure LoadedScript where
  /-- The dependencies and then the body. -/
  loaded : List Segment
  /-- What runs once the body has finished. -/
  epilogue : List Segment
  deriving DecidableEq, Repr

/-- A text that ends in a line feed. -/
def withLineFeed (source : String) : String :=
  if source.toList.getLast? = some '\n' then source else source ++ "\n"

namespace LoadedScript

/-- A script without an epilogue; its last segment is the body. -/
def ofSegments (segments : List Segment) : LoadedScript := ⟨segments, []⟩

/-- The script with one more segment to run at the end. -/
def withEpilogue (script : LoadedScript) (segment : Segment) : LoadedScript :=
  { script with epilogue := script.epilogue ++ [segment] }

def segments (script : LoadedScript) : List Segment := script.loaded ++ script.epilogue

/-- The place of the body among the segments; a script of no files has none. -/
def bodyIndex? (script : LoadedScript) : Option Nat :=
  if script.loaded = [] then none else some (script.loaded.length - 1)

def body? (script : LoadedScript) : Option Segment := script.loaded.getLast?

def dependencies (script : LoadedScript) : List Segment := script.loaded.dropLast

def concatenated (script : LoadedScript) : String :=
  String.join (script.segments.map fun s => withLineFeed s.source)

end LoadedScript

/-- Why a script cannot be put together. -/
inductive LoadFault
  /-- A directive asks for a file that is not there. -/
  | missingDependency (requested : String) (resolved origin : Path)
  /-- A chain of directives comes back to a file that is still being loaded. -/
  | cyclicLoad (chain : List Path)
  /-- A file cannot be read. -/
  | unreadable (path : Path) (message : String)
  deriving DecidableEq, Repr

def LoadFault.message : LoadFault → String
  | .missingDependency requested resolved origin =>
    "missing dependency '" ++ requested ++ "' (resolved to " ++ resolved.text ++
      ") loaded from " ++ origin.text
  | .cyclicLoad chain => "cyclic load: " ++ " -> ".intercalate (chain.map Path.text)
  | .unreadable path message => "failed to read " ++ path.text ++ ": " ++ message

end EngineTrials
