import EngineTrials.Proofs.FileSystem.Components

/-! The fixtures that a run finds below a folder: those regular files of the tree that its settings
ask for, each once. The listing of the tree names them in the order of their paths, component by
component, so sorting them changes nothing. -/

namespace EngineTrials

namespace Runner

/-- The settings of a runner ask for the fixture. -/
structure Admits (r : Runner) (found : Found) : Prop where
  extension : ∃ extension ∈ r.settings.extensions, found.path.extension? = some extension
  not_helper : ∀ name, found.path.fileName? = some name → name ∉ r.settings.implicitIncludes
  not_excluded : ∀ glob ∈ r.exclude, glob.selects found.relative = false
  filtered : ∀ glob ∈ r.filter, glob.selects found.relative = true

variable {r : Runner} {fs : FileSystem} {path : Path} {name : String} {names : List String}

theorem fileName?_foundAt (h : ∀ name ∈ names, IsFileName name) (hne : names ≠ []) :
    (foundAt path names).path.fileName? = names.getLast? := by
  obtain ⟨init, last, rfl⟩ := (List.eq_nil_or_concat names).resolve_left hne
  rw [List.concat_eq_append] at h ⊢
  have hcomponents := Path.components_foldl_join (p := path) h
  rw [List.map_append, ← List.append_assoc] at hcomponents
  rw [foundAt, Path.fileName?_of_components hcomponents, List.getLast?_concat]

theorem hasExtension_iff (h : path.fileName? = some name) : r.hasExtension name = true ↔
    ∃ extension ∈ r.settings.extensions, path.extension? = some extension := by
  rw [Path.extension?, h, Option.bind_some, hasExtension]
  cases (Path.splitName name).2 with
  | none => simp
  | some extension => simp

theorem wants_iff (h : ∀ name ∈ names, IsFileName name) (hne : names ≠ []) :
    r.wants names = true ↔ r.Admits (foundAt path names) := by
  obtain ⟨name, hname⟩ : ∃ name, names.getLast? = some name :=
    ⟨_, List.getLast?_eq_some_getLast hne⟩
  have hfile : (foundAt path names).path.fileName? = some name :=
    (fileName?_foundAt h hne).trans hname
  have hhelper : r.settings.implicitIncludes.contains name = false ↔ ∀ other,
      (foundAt path names).path.fileName? = some other → other ∉ r.settings.implicitIncludes := by
    simp [hfile]
  have hfilter : (r.filter.map fun glob => glob.selects (relativePath names)).getD true = true ↔
      ∀ glob ∈ r.filter, glob.selects (relativePath names) = true := by
    cases r.filter <;> simp
  simp only [wants, hname, Option.getD_some, Bool.and_eq_true, hasExtension_iff hfile, hhelper,
    hfilter, Bool.not_eq_true', List.any_eq_false, Bool.not_eq_true]
  constructor
  · rintro ⟨⟨⟨hextension, hhelper⟩, hexclude⟩, hfilter⟩
    exact ⟨hextension, hhelper, hexclude, hfilter⟩
  · rintro ⟨hextension, hhelper, hexclude, hfilter⟩
    exact ⟨⟨⟨hextension, hhelper⟩, hexclude⟩, hfilter⟩

theorem namesLe_of_lt {a b : List String} (h : a < b) : namesLe a b = true := by
  rw [← List.lex_lt] at h
  induction h with
  | nil => rfl
  | @rel a _ b _ hlt => simp [namesLe, hlt, hlt.ne]
  | cons _ ih => simpa [namesLe] using ih

/-- The fixtures that a runner has to find below a folder. -/
structure FindsBelow (r : Runner) (path : Path) (folder : Entry) (fixtures : List Found) :
    Prop where
  /-- They are the regular files below the folder that the settings ask for. -/
  mem_iff : ∀ found, found ∈ fixtures ↔ r.Admits found ∧ ∃ names content,
    Entry.at? names folder = some (.file content) ∧ found = foundAt path names
  /-- The path of a file is that of the folder with its relative path, which is made of the names
  that lead to the file. -/
  components : ∀ names content, Entry.at? names folder = some (.file content) →
    (foundAt path names).relative.components = names.map .name ∧
      (foundAt path names).path.components = path.components ++ names.map .name
  distinct : fixtures.Nodup
  increasing : fixtures.Pairwise fun a b => a.relative.Before b.relative

variable {place : Location} {children : List (String × Entry)}

theorem ne_nil_of_at?_file {content : List UInt8}
    (h : Entry.at? names (.folder children) = some (.file content)) : names ≠ [] := by
  rintro rfl
  simp [Entry.at?] at h

theorem filesBelow_eq (hplace : fs.locate path = .ok place)
    (hfolder : fs.entry? place = some (.folder children)) :
    fs.filesBelow path = (Entry.folder children).filesBelow := by
  simp only [FileSystem.filesBelow, hplace, hfolder, Option.map_some, Option.getD_some]

theorem isFile_eq_false (hplace : fs.locate path = .ok place)
    (hfolder : fs.entry? place = some (.folder children)) : fs.isFile path = false := by
  simp only [FileSystem.isFile, hplace, FileSystem.bytesAt, hfolder]
  rfl

/-- A run of a folder finds the fixtures below it in the order of the listing. -/
theorem discover_eq (hplace : fs.locate path = .ok place)
    (hfolder : fs.entry? place = some (.folder children))
    (htree : (Entry.folder children).IsTree) :
    r.discover fs path = ((Entry.folder children).filesBelow.filter r.wants).map (foundAt path) := by
  have hsorted := (htree.pairwise_filesBelow.filter r.wants).imp namesLe_of_lt
  rw [discover, if_neg (by simp [isFile_eq_false hplace hfolder]), filesBelow_eq hplace hfolder,
    List.mergeSort_of_pairwise hsorted]

theorem mem_wanted_iff (htree : (Entry.folder children).IsTree) (found : Found) :
    found ∈ ((Entry.folder children).filesBelow.filter r.wants).map (foundAt path) ↔
      r.Admits found ∧ ∃ names content,
        Entry.at? names (.folder children) = some (.file content) ∧ found = foundAt path names := by
  simp only [List.mem_map, List.mem_filter]
  constructor
  · rintro ⟨names, ⟨hnames, hwants⟩, rfl⟩
    obtain ⟨content, hat⟩ := htree.mem_filesBelow_iff.1 hnames
    have hne := ne_nil_of_at?_file hat
    exact ⟨(wants_iff (htree.isFileName hnames) hne).1 hwants, names, content, hat, rfl⟩
  · rintro ⟨hadmits, names, content, hat, rfl⟩
    have hnames := htree.mem_filesBelow_iff.2 ⟨content, hat⟩
    have hne := ne_nil_of_at?_file hat
    exact ⟨names, ⟨hnames, (wants_iff (htree.isFileName hnames) hne).2 hadmits⟩, rfl⟩

theorem pairwise_wanted (r : Runner) (path : Path) (htree : (Entry.folder children).IsTree) :
    (((Entry.folder children).filesBelow.filter r.wants).map (foundAt path)).Pairwise
      fun a b => a.relative.Before b.relative := by
  have hcomponents : ∀ names ∈ (Entry.folder children).filesBelow.filter r.wants,
      (relativePath names).components = names.map .name := fun names hnames =>
    Path.components_relativePath (htree.isFileName (List.mem_of_mem_filter hnames))
  rw [List.pairwise_map]
  refine (htree.pairwise_filesBelow.filter r.wants).imp_of_mem fun ha hb hlt => ?_
  exact Path.before_of_lt (hcomponents _ ha) (hcomponents _ hb) hlt

/-- A run of a folder finds the fixtures below it. The listing has them in their order already:
sorting it changes nothing. -/
theorem findsBelow_discover (hplace : fs.locate path = .ok place)
    (hfolder : fs.entry? place = some (.folder children))
    (htree : (Entry.folder children).IsTree) :
    r.FindsBelow path (.folder children) (r.discover fs path) ∧
      r.discover fs path = ((fs.filesBelow path).filter r.wants).map (foundAt path) := by
  rw [filesBelow_eq hplace hfolder]
  have hdiscover := discover_eq (r := r) hplace hfolder htree
  refine ⟨?_, hdiscover⟩
  rw [hdiscover]
  have hincreasing := pairwise_wanted r path htree
  constructor
  case mem_iff => exact mem_wanted_iff htree
  case components =>
    intro names content hat
    have hnames := htree.isFileName (htree.mem_filesBelow_iff.2 ⟨content, hat⟩)
    exact ⟨Path.components_relativePath hnames, Path.components_foldl_join hnames⟩
  case distinct =>
    refine hincreasing.imp fun {a b} hbefore heq => ?_
    exact Path.not_before_self a.relative (heq ▸ hbefore)
  case increasing => exact hincreasing

/-- A folder with a helper file, a link, and a folder whose name another name starts with. -/
def fixtureFolder : List (String × Entry) :=
  [("d-x.js", .file []), ("to.js", .link "d-x.js"), ("notes.txt", .file []),
    ("d", .folder [("shell.js", .file []), ("b.js", .file []), ("a.js", .file [])])]

def fixtureFiles : FileSystem := ⟨[("fixtures", .folder fixtureFolder)], ⟨[]⟩⟩

def excludingRunner : Runner := ⟨{}, none, [⟨"**/b.js"⟩], .empty⟩

theorem isTree_fixtureFolder : (Entry.folder fixtureFolder).IsTree := by
  have hinner : (Entry.folder [("shell.js", .file []), ("b.js", .file []),
      ("a.js", .file [])]).IsTree :=
    .folder (by decide) (by decide) (by simp [Entry.IsTree.file])
  exact .folder (by decide) (by decide)
    (by simp [fixtureFolder, Entry.IsTree.file, Entry.IsTree.link, hinner])

theorem filesBelow_fixtureFolder : (Entry.folder fixtureFolder).filesBelow =
    [["d", "a.js"], ["d", "b.js"], ["d", "shell.js"], ["d-x.js"], ["notes.txt"]] := by
  simp [Entry.filesBelow_folder, sortByName, fixtureFolder, List.mergeSort,
    List.MergeSort.Internal.splitInTwo]

/-- As texts, `d-x.js` comes before `d/a.js`; as paths, it comes after it. -/
theorem findsBelow_discover_excluded :
    (Entry.folder fixtureFolder).IsTree ∧
      fixtureFiles.locate ⟨"fixtures"⟩ = .ok ⟨["fixtures"]⟩ ∧
      fixtureFiles.entry? ⟨["fixtures"]⟩ = some (.folder fixtureFolder) ∧
      excludingRunner.FindsBelow ⟨"fixtures"⟩ (.folder fixtureFolder)
        [⟨⟨"d/a.js"⟩, ⟨"fixtures/d/a.js"⟩⟩, ⟨⟨"d-x.js"⟩, ⟨"fixtures/d-x.js"⟩⟩] := by
  have hplace : fixtureFiles.locate ⟨"fixtures"⟩ = .ok ⟨["fixtures"]⟩ := by rfl
  have hfolder : fixtureFiles.entry? ⟨["fixtures"]⟩ = some (.folder fixtureFolder) := by rfl
  have hdiscover : excludingRunner.discover fixtureFiles ⟨"fixtures"⟩ =
      [⟨⟨"d/a.js"⟩, ⟨"fixtures/d/a.js"⟩⟩, ⟨⟨"d-x.js"⟩, ⟨"fixtures/d-x.js"⟩⟩] := by
    rw [discover_eq hplace hfolder isTree_fixtureFolder, filesBelow_fixtureFolder]
    decide
  have hfinds := findsBelow_discover (r := excludingRunner) hplace hfolder isTree_fixtureFolder
  exact ⟨isTree_fixtureFolder, hplace, hfolder, hdiscover ▸ hfinds.1⟩

end Runner

end EngineTrials
