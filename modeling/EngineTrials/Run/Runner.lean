import EngineTrials.Load.Loader
import EngineTrials.Settings.Basic
import EngineTrials.SkipList

/-! What a run needs to know, made from its settings, and the fixtures that it finds: one file, or
those below a folder that the settings ask for, in the order of their paths. -/

namespace EngineTrials

/-- A fixture that has been found. -/
structure Found where
  /-- The path below the folder that was searched. -/
  relative : Path
  path : Path
  deriving DecidableEq, Repr

/-- The settings of a run with its globs and its skip list. -/
structure Runner where
  settings : Settings
  filter : Option Glob
  exclude : List Glob
  skipList : SkipList
  deriving DecidableEq, Repr

def Glob.ofText (text : String) : Except SettingsFault Glob :=
  match Glob.ofText? text with
  | some glob => .ok glob
  | none => .error .emptyGlob

def SkipList.ofFile (fs : FileSystem) (path : Path) : Except SettingsFault SkipList :=
  match fs.readText path with
  | .error fault => .error (.unreadable path fault)
  | .ok text =>
    match SkipList.parse? text with
    | some list => .ok list
    | none => .error .emptyGlob

namespace Runner

/-- The runner of checked settings; it reads the skip list that they name. -/
def ofSettings (fs : FileSystem) (settings : Settings) : Except SettingsFault Runner := do
  settings.validate
  let filter ← match settings.filter with
    | some text => some <$> Glob.ofText text
    | none => .ok none
  let exclude ← settings.exclude.mapM Glob.ofText
  let skipList ← match settings.skipList with
    | some path => SkipList.ofFile fs path
    | none => .ok .empty
  return { settings, filter, exclude, skipList }

def withSkipList (r : Runner) (skipList : SkipList) : Runner := { r with skipList }

def loader (r : Runner) : Loader := ⟨r.settings.sourceRoot, r.settings.implicitIncludes⟩

/-- Whether a file name has an extension of fixtures. -/
def hasExtension (r : Runner) (name : String) : Bool :=
  match (Path.splitName name).2 with
  | some extension => r.settings.extensions.contains extension
  | none => false

def relativePath (names : List String) : Path := ⟨Text.join "/" names⟩

/-- Whether the file that names lead to, from the folder searched, is a fixture that is wanted. -/
def wants (r : Runner) (names : List String) : Bool :=
  let name := names.getLast?.getD ""
  let relative := relativePath names
  r.hasExtension name && !r.settings.implicitIncludes.contains name &&
    !(r.exclude.any fun glob => glob.selects relative) &&
    (r.filter.map fun glob => glob.selects relative).getD true

/-- The fixture that names lead to from a folder. -/
def foundAt (folder : Path) (names : List String) : Found :=
  ⟨relativePath names, names.foldl (fun path name => path.join ⟨name⟩) folder⟩

/-- Whether names come before others, or are the same, name by name. -/
def namesLe : List String → List String → Bool
  | [], _ => true
  | _ :: _, [] => false
  | a :: as, b :: bs => if a = b then namesLe as bs else a < b

/-- The fixtures that a run of a path executes. A path to a file is taken as it is. -/
def discover (r : Runner) (fs : FileSystem) (path : Path) : List Found :=
  if fs.isFile path then [⟨⟨path.fileName?.getD ""⟩, path⟩]
  else
    (((fs.filesBelow path).filter r.wants).mergeSort namesLe).map (foundAt path)

end Runner

end EngineTrials
