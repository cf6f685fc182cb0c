import EngineTrials.FileSystem.Basic
import EngineTrials.Fixture.Basic
import EngineTrials.Load.Basic

/-! Loading a fixture: first the helper files of the folders above it, then the files that load
directives ask for, depth first, and the fixture at last. A file is entered only if it is on no
chain of files still being loaded, so the search ends: each step deeper takes one file out of those
not yet on the chain. -/

namespace EngineTrials

/-- How scripts are put together. -/
structure Loader where
  /-- The folder that load directives start from. -/
  sourceRoot : Path
  /-- The names of the helper files that are loaded without being asked for. -/
  implicitIncludes : List String
  deriving DecidableEq, Repr

/-- What has been loaded so far. -/
structure Progress where
  /-- The files whose text is among the segments. -/
  included : List Location
  segments : List Segment
  deriving DecidableEq, Repr

def Progress.start : Progress := ⟨[], []⟩

/-- The progress after a file and everything it loads. -/
def Progress.emit (p : Progress) (key : Location) (segment : Segment) : Progress :=
  ⟨key :: p.included, p.segments ++ [segment]⟩

/-- The number of files that are not on a chain. -/
def FileSystem.offChain (fs : FileSystem) (chain : List Location) : Nat :=
  (fs.files.filter fun l => l ∉ chain).length

theorem length_filter_lt {α : Type} {p q : α → Bool} {items : List α} {a : α} (ha : a ∈ items)
    (hp : p a = true) (hq : q a = false) (himp : ∀ b, q b = true → p b = true) :
    (items.filter q).length < (items.filter p).length := by
  induction items with
  | nil => simp at ha
  | cons b rest ih =>
    have hle : (rest.filter q).length ≤ (rest.filter p).length := by
      simpa [List.countP_eq_length_filter] using
        List.countP_mono_left (l := rest) fun b _ => himp b
    rcases List.mem_cons.1 ha with rfl | ha
    · simp only [List.filter_cons, hp, hq, if_true, Bool.false_eq_true, if_false,
        List.length_cons]
      omega
    · have := ih ha
      by_cases hqb : q b = true
      · simp only [List.filter_cons, hqb, himp b hqb, if_true, List.length_cons]
        omega
      · rw [List.filter_cons, if_neg hqb, List.filter_cons]
        split
        · exact Nat.lt_succ_of_lt this
        · exact this

/-- Entering a file takes it out of those not on the chain. -/
theorem FileSystem.offChain_lt {fs : FileSystem} {chain : List Location} {key : Location}
    {source : String} (hc : key ∉ chain) (hs : fs.textAt key = .ok source) :
    fs.offChain (chain ++ [key]) < fs.offChain chain := by
  refine length_filter_lt (FileSystem.mem_files_of_textAt hs) (by simpa using hc) (by simp) ?_
  intro b hb
  simp only [List.mem_append, List.mem_singleton, not_or, decide_eq_true_eq] at hb ⊢
  exact hb.1

namespace Loader

/-- Whether a path names one of the helper files. -/
def isImplicitInclude (loader : Loader) (path : Path) : Bool :=
  match path.fileName? with
  | some name => loader.implicitIncludes.contains name
  | none => false

/-- Where the file of a load directive is. -/
def resolve (loader : Loader) (requested : String) : Path := loader.sourceRoot.join ⟨requested⟩

def locate (fs : FileSystem) (path : Path) : Except LoadFault Location :=
  match fs.locate path with
  | .ok key => .ok key
  | .error fault => .error (.unreadable path fault.message)

/-- Reads the file at a location, found under `path`. -/
def readAt (fs : FileSystem) (path : Path) (key : Location) : Except LoadFault String :=
  match fs.textAt key with
  | .ok source => .ok source
  | .error fault => .error (.unreadable path fault.message)

/-- Loads what the directives of `origin` ask for; `chain` holds the files being loaded, from the
outermost to `origin`. -/
def visitAll (loader : Loader) (fs : FileSystem) (chain : List Location) (origin : Path) :
    List LoadDirective → Progress → Except LoadFault Progress
  | [], progress => .ok progress
  | directive :: rest, progress =>
    let resolved := loader.resolve directive.path
    if fs.isFile resolved = false then
      .error (.missingDependency directive.path resolved origin)
    else
      match locate fs resolved with
      | .error fault => .error fault
      | .ok key =>
        if _ : key ∈ chain then .error (.cyclicLoad ((chain ++ [key]).map Location.toPath))
        else if key ∈ progress.included then visitAll loader fs chain origin rest progress
        else
          match _ : fs.textAt key with
          | .error fault => .error (.unreadable resolved fault.message)
          | .ok source =>
            match visitAll loader fs (chain ++ [key]) resolved (loadDirectives source)
                progress with
            | .error fault => .error fault
            | .ok below =>
              visitAll loader fs chain origin rest (below.emit key ⟨resolved, source⟩)
termination_by directives => (fs.offChain chain, directives.length)
decreasing_by
  · exact Prod.Lex.right _ (by simp)
  · exact Prod.Lex.left _ _ (FileSystem.offChain_lt (by assumption) (by assumption))
  · exact Prod.Lex.right _ (by simp)

/-- Loads everything that a file asks for, and then the file. -/
def visit (loader : Loader) (fs : FileSystem) (chain : List Location) (path : Path)
    (key : Location) (source : String) (progress : Progress) : Except LoadFault Progress :=
  match loader.visitAll fs (chain ++ [key]) path (loadDirectives source) progress with
  | .error fault => .error fault
  | .ok below => .ok (below.emit key ⟨path, source⟩)

/-- The folders whose helper files a fixture in `folder` gets, outermost first: those from the
source root down to it, or just its own if it is not below the source root. -/
def includeFolders (loader : Loader) (fs : FileSystem) (folder : Path) : List Path :=
  match fs.locate loader.sourceRoot, fs.locate folder with
  | .ok root, .ok start =>
    if root.names.isPrefixOf start.names then
      (List.range (start.names.length + 1 - root.names.length)).map fun k =>
        Location.toPath ⟨start.names.take (root.names.length + k)⟩
    else [folder]
  | _, _ => [folder]

/-- The helper files of a fixture, outermost folder first. -/
def implicitIncludesFor (loader : Loader) (fs : FileSystem) (fixture : Path) : List Path :=
  if loader.implicitIncludes = [] then []
  else
    match fixture.parent? with
    | none => []
    | some folder =>
      ((loader.includeFolders fs folder).flatMap fun dir =>
        loader.implicitIncludes.map fun name => dir.join ⟨name⟩).filter fs.isFile

/-- Loads helper files one after the other, except the fixture itself and those already loaded. -/
def visitIncludes (loader : Loader) (fs : FileSystem) (fixtureKey : Location) :
    List Path → Progress → Except LoadFault Progress
  | [], progress => .ok progress
  | path :: rest, progress => do
    let key ← locate fs path
    if key = fixtureKey ∨ key ∈ progress.included then
      visitIncludes loader fs fixtureKey rest progress
    else
      let source ← readAt fs path key
      let progress ← loader.visit fs [] path key source progress
      visitIncludes loader fs fixtureKey rest progress

/-- Puts together a fixture whose source has been read. -/
def loadFixture (loader : Loader) (fs : FileSystem) (fixture : Fixture) :
    Except LoadFault LoadedScript := do
  let fixtureKey ← locate fs fixture.path
  let progress ← loader.visitIncludes fs fixtureKey
    (loader.implicitIncludesFor fs fixture.path) .start
  let progress ← loader.visit fs [] fixture.path fixtureKey fixture.source progress
  return .ofSegments progress.segments

def readFixture (fs : FileSystem) (path : Path) : Except LoadFault Fixture :=
  match fs.readText path with
  | .ok source => .ok ⟨path, source⟩
  | .error fault => .error (.unreadable path fault.message)

def load (loader : Loader) (fs : FileSystem) (path : Path) : Except LoadFault LoadedScript := do
  loader.loadFixture fs (← readFixture fs path)

end Loader

end EngineTrials
