import EngineTrials.Bench.Script
import EngineTrials.Load.Loader

/-! Suites of benchmark scripts: one file, or those scripts below a folder that have entry points. -/

namespace EngineTrials

/-- Scripts in the order in which they run. -/
structure BenchSuite where
  scripts : List BenchScript
  deriving DecidableEq, Repr

/-- Why a suite cannot be gathered. -/
inductive SuiteFault
  | load (fault : LoadFault)
  | noEntryPoints (path : Path)
  deriving DecidableEq, Repr

def SuiteFault.message : SuiteFault → String
  | .load fault => fault.message
  | .noEntryPoints path => "no benchmark entry points in " ++ path.text

def BenchScript.ofFile (fs : FileSystem) (path : Path) : Except LoadFault BenchScript :=
  (Loader.readFixture fs path).map fun f => .ofSource f.path f.source

namespace BenchSuite

def scriptExtension : String := "js"

/-- Whether the file that names lead to is a benchmark script by its name. -/
def isScript (names : List String) : Bool :=
  (Path.splitName (names.getLast?.getD "")).2 == some scriptExtension

/-- The path of the file that names lead to from a folder. -/
def pathBelow (folder : Path) (names : List String) : Path :=
  names.foldl (fun path name => path.join ⟨name⟩) folder

/-- Gathers the scripts that a path leads to. A single file has to have entry points; below a folder
the scripts without any are left out. -/
def discover (fs : FileSystem) (path : Path) : Except SuiteFault BenchSuite :=
  if fs.isFile path then
    match BenchScript.ofFile fs path with
    | .error fault => .error (.load fault)
    | .ok script => if script.entryPoints = [] then .error (.noEntryPoints path) else .ok ⟨[script]⟩
  else
    match ((fs.filesBelow path).filter isScript).mapM fun names =>
        BenchScript.ofFile fs (pathBelow path names) with
    | .error fault => .error (.load fault)
    | .ok scripts => .ok ⟨scripts.filter fun s => s.entryPoints ≠ []⟩

def concat (suites : List BenchSuite) : BenchSuite := ⟨suites.flatMap scripts⟩

def size (suite : BenchSuite) : Nat := (suite.scripts.flatMap BenchScript.entryPoints).length

end BenchSuite

end EngineTrials
