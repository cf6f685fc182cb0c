import EngineTrials.Proofs.FileSystem.Following
import EngineTrials.Proofs.Run.Discovery

/-! Helper files among the fixtures that a run of a folder finds. Helper files are looked up by
joining each configured name to a folder; a file below the run's folder is no fixture if its own
name is a configured one. Where the configured name is the name of a file, and no link has it, the
two agree. A name with folders in it, and a link to a file of another name, lead to helper files
that a run takes for fixtures. -/

namespace EngineTrials

namespace Loader

variable {loader : Loader} {fs : FileSystem} {fixture helper : Path}

/-- A configured name is looked up in a folder for a fixture. -/
structure LooksUp (loader : Loader) (fs : FileSystem) (fixture folder : Path) (name : String) :
    Prop where
  configured : name ∈ loader.implicitIncludes
  above : ∃ own, fixture.parent? = some own ∧ folder ∈ loader.includeFolders fs own

/-- The helper files of a fixture are the files among what is looked up for it. -/
theorem mem_implicitIncludesFor_iff : helper ∈ loader.implicitIncludesFor fs fixture ↔
    ∃ folder name, loader.LooksUp fs fixture folder name ∧ folder.join ⟨name⟩ = helper ∧
      fs.isFile helper = true := by
  unfold implicitIncludesFor
  split_ifs with hnone
  · refine iff_of_false List.not_mem_nil ?_
    rintro ⟨folder, name, hlooks, -⟩
    simpa [hnone] using hlooks.configured
  · cases hparent : fixture.parent? with
    | none =>
      refine iff_of_false List.not_mem_nil ?_
      rintro ⟨folder, name, ⟨-, own, hown, -⟩, -⟩
      simp [hparent] at hown
    | some own =>
      simp only [List.mem_filter, List.mem_flatMap, List.mem_map]
      constructor
      · rintro ⟨⟨folder, hfolder, name, hname, hjoin⟩, hfile⟩
        exact ⟨folder, name, ⟨hname, own, hparent, hfolder⟩, hjoin, hfile⟩
      · rintro ⟨folder, name, ⟨hname, other, hother, hfolder⟩, hjoin, hfile⟩
        obtain rfl : own = other := Option.some.inj (hparent.symm.trans hother)
        exact ⟨⟨folder, hfolder, name, hname, hjoin⟩, hfile⟩

end Loader

namespace Runner

variable {r : Runner} {fs : FileSystem} {path folder : Path} {name : String} {place : Location}
  {children : List (String × Entry)} {found : Found}

/-- A file below the folder at a path that the settings of a runner ask for. -/
def Wanted (r : Runner) (path : Path) (folder : Entry) (found : Found) : Prop :=
  r.Admits found ∧ ∃ names content,
    Entry.at? names folder = some (.file content) ∧ found = foundAt path names

theorem mem_discover_iff (hplace : fs.locate path = .ok place)
    (hfolder : fs.entry? place = some (.folder children))
    (htree : (Entry.folder children).IsTree) :
    found ∈ r.discover fs path ↔ r.Wanted path (.folder children) found := by
  rw [discover_eq hplace hfolder htree]
  exact mem_wanted_iff htree found

/-- A fixture below a folder is a file, and no configured name is the name of its place. -/
theorem Wanted.isFile_and_notMem (hplace : fs.locate path = .ok place)
    (hfolder : fs.entry? place = some (.folder children))
    (htree : (Entry.folder children).IsTree) (h : r.Wanted path (.folder children) found)
    {l : Location} (hl : fs.locate found.path = .ok l) : fs.isFile found.path = true ∧
      ∀ name, l.names.getLast? = some name → name ∉ r.settings.implicitIncludes := by
  obtain ⟨hadmits, names, content, hat, rfl⟩ := h
  have hnames := htree.isFileName (htree.mem_filesBelow_iff.2 ⟨content, hat⟩)
  have hne := ne_nil_of_at?_file hat
  have hfile : fs.entry? ⟨place.names ++ names⟩ = some (.file content) := by
    rw [FileSystem.entry?_append, hfolder, Option.bind_some, hat]
  obtain rfl := FileSystem.eq_of_locate_below hplace hfile (Path.components_foldl_join hnames) hl
  constructor
  · simp only [FileSystem.isFile, hl, FileSystem.bytesAt, hfile]
    rfl
  · intro name hname
    refine hadmits.not_helper name ?_
    rw [fileName?_foundAt hnames hne, ← List.getLast?_append_of_ne_nil place.names hne, hname]

/-- A helper file that a plain name leads to, without a link, is no fixture. -/
theorem Wanted.not_meet (hplace : fs.locate path = .ok place)
    (hfolder : fs.entry? place = some (.folder children))
    (htree : (Entry.folder children).IsTree) (h : r.Wanted path (.folder children) found)
    (hconfigured : name ∈ r.settings.implicitIncludes) (hname : IsFileName name)
    (hlink : ¬ fs.HoldsLink folder name) : ¬ fs.Meet found.path (folder.join ⟨name⟩) := by
  rintro ⟨l, hl, hhelper⟩
  obtain ⟨here, rfl⟩ := FileSystem.locate_join hname hlink hhelper
  have hother := (h.isFile_and_notMem hplace hfolder htree hl).2
  exact hother name List.getLast?_concat hconfigured

/-- None of the fixtures is, by the place that its path leads to, a helper file of one of them. -/
def SparesHelpers (r : Runner) (fs : FileSystem) (fixtures : List Found) : Prop :=
  ∀ found ∈ fixtures, ∀ other ∈ fixtures, ∀ helper ∈ r.loader.implicitIncludesFor fs other.path,
    ¬ fs.Meet found.path helper

/-- A run of a folder takes no helper file of a fixture for a fixture, if and only if none of the
files that it is asked for is where a configured name that is more than the name of a file, or one
that a link has, leads from a folder above a fixture. -/
theorem sparesHelpers_discover_iff (hplace : fs.locate path = .ok place)
    (hfolder : fs.entry? place = some (.folder children))
    (htree : (Entry.folder children).IsTree) :
    r.SparesHelpers fs (r.discover fs path) ↔
      ∀ found other, r.Wanted path (.folder children) found →
        r.Wanted path (.folder children) other →
          ∀ folder name, r.loader.LooksUp fs other.path folder name →
            ¬ IsFileName name ∨ fs.HoldsLink folder name →
              ¬ fs.Meet found.path (folder.join ⟨name⟩) := by
  simp only [SparesHelpers, mem_discover_iff hplace hfolder htree]
  constructor
  · intro hspares found other hfound hother folder name hlooks _ hmeet
    have hfile : fs.isFile (folder.join ⟨name⟩) = true := by
      obtain ⟨l, hl, -⟩ := id hmeet
      rw [← hmeet.isFile_eq]
      exact (hfound.isFile_and_notMem hplace hfolder htree hl).1
    have hhelper := Loader.mem_implicitIncludesFor_iff.2 ⟨folder, name, hlooks, rfl, hfile⟩
    exact hspares found hfound other hother _ hhelper hmeet
  · intro hroundabout found hfound other hother helper hhelper
    obtain ⟨folder, name, hlooks, rfl, -⟩ := Loader.mem_implicitIncludesFor_iff.1 hhelper
    by_cases hplain : IsFileName name ∧ ¬ fs.HoldsLink folder name
    · exact hfound.not_meet hplace hfolder htree hlooks.configured hplain.1 hplain.2
    · rw [not_and_or, not_not] at hplain
      exact hroundabout found other hfound hother folder name hlooks hplain

/-- A folder with a fixture, and with a helper file in a folder of its own. -/
def nestedFiles : FileSystem :=
  ⟨[("a.js", .file []), ("lib", .folder [("shell.js", .file [])])], ⟨[]⟩⟩

def naming (names : List String) : Runner :=
  ⟨{ implicitIncludes := names }, none, [], .empty⟩

theorem locate_nestedFiles : nestedFiles.locate ⟨"."⟩ = .ok ⟨[]⟩ := by rfl

theorem entry?_nestedFiles : nestedFiles.entry? ⟨[]⟩ = some (.folder nestedFiles.children) := by rfl

theorem isTree_nestedFiles : (Entry.folder nestedFiles.children).IsTree := by
  have hinner : (Entry.folder [("shell.js", .file [])]).IsTree :=
    .folder (by decide) (by decide) (by simp [Entry.IsTree.file])
  exact .folder (by decide) (by decide) (by simp [nestedFiles, Entry.IsTree.file, hinner])

theorem discover_nestedFiles (names : List String) :
    (naming names).discover nestedFiles ⟨"."⟩ =
      ([["a.js"], ["lib", "shell.js"]].filter (naming names).wants).map (foundAt ⟨"."⟩) := by
  rw [discover_eq locate_nestedFiles entry?_nestedFiles isTree_nestedFiles]
  simp [Entry.filesBelow_folder, sortByName, nestedFiles, List.mergeSort,
    List.MergeSort.Internal.splitInTwo]

/-- A helper file of its own name is spared where its path is configured as well. -/
theorem sparesHelpers_discover_ownName :
    nestedFiles.locate ⟨"."⟩ = .ok ⟨[]⟩ ∧
      nestedFiles.entry? ⟨[]⟩ = some (.folder nestedFiles.children) ∧
      (Entry.folder nestedFiles.children).IsTree ∧
      (naming ["shell.js", "lib/shell.js"]).SparesHelpers nestedFiles
        ((naming ["shell.js", "lib/shell.js"]).discover nestedFiles ⟨"."⟩) := by
  refine ⟨locate_nestedFiles, entry?_nestedFiles, isTree_nestedFiles, ?_⟩
  refine (sparesHelpers_discover_iff locate_nestedFiles entry?_nestedFiles isTree_nestedFiles).2 ?_
  have hdiscover : (naming ["shell.js", "lib/shell.js"]).discover nestedFiles ⟨"."⟩ =
      [⟨⟨"a.js"⟩, ⟨"./a.js"⟩⟩] := by
    rw [discover_nestedFiles]
    decide
  have hparent : (⟨"./a.js"⟩ : Path).parent? = some ⟨"."⟩ := by decide
  have hfolders : (naming ["shell.js", "lib/shell.js"]).loader.includeFolders nestedFiles ⟨"."⟩ =
      [⟨"/"⟩] := by
    decide
  have hfixture : nestedFiles.locate ⟨"./a.js"⟩ = .ok ⟨["a.js"]⟩ := by rfl
  have hmissing : nestedFiles.locate ⟨"/shell.js"⟩ = .error .missing := by rfl
  have hnested : nestedFiles.locate ⟨"/lib/shell.js"⟩ = .ok ⟨["lib", "shell.js"]⟩ := by rfl
  rintro found other hfound hother folder name ⟨hname, own, hown, habove⟩ - ⟨l, hl, hhelper⟩
  rw [← mem_discover_iff locate_nestedFiles entry?_nestedFiles isTree_nestedFiles, hdiscover]
    at hfound hother
  obtain rfl := List.mem_singleton.1 hfound
  obtain rfl := List.mem_singleton.1 hother
  obtain rfl : ⟨"."⟩ = own := Option.some.inj (hparent.symm.trans hown)
  rw [hfolders] at habove
  obtain rfl := List.mem_singleton.1 habove
  obtain rfl : ⟨["a.js"]⟩ = l := Except.ok.inj (hfixture.symm.trans hl)
  rcases List.mem_cons.1 hname with rfl | hpath
  · exact absurd (hmissing.symm.trans hhelper) (by simp)
  · obtain rfl := List.mem_singleton.1 hpath
    exact absurd (hnested.symm.trans hhelper) (by simp)

/-- The helper file `lib/shell.js` of `a.js` is a fixture of the run: its own name is another one
than the configured name. -/
theorem not_sparesHelpers_discover_nested :
    Runner.ofSettings nestedFiles (naming ["lib/shell.js"]).settings =
        .ok (naming ["lib/shell.js"]) ∧
      nestedFiles.locate ⟨"."⟩ = .ok ⟨[]⟩ ∧
      nestedFiles.entry? ⟨[]⟩ = some (.folder nestedFiles.children) ∧
      (Entry.folder nestedFiles.children).IsTree ∧
      ¬ (naming ["lib/shell.js"]).SparesHelpers nestedFiles
        ((naming ["lib/shell.js"]).discover nestedFiles ⟨"."⟩) := by
  refine ⟨by rfl, locate_nestedFiles, entry?_nestedFiles, isTree_nestedFiles, fun hspares => ?_⟩
  have hdiscover : (naming ["lib/shell.js"]).discover nestedFiles ⟨"."⟩ =
      [⟨⟨"a.js"⟩, ⟨"./a.js"⟩⟩, ⟨⟨"lib/shell.js"⟩, ⟨"./lib/shell.js"⟩⟩] := by
    rw [discover_nestedFiles]
    decide
  have hhelper : ⟨"/lib/shell.js"⟩ ∈
      (naming ["lib/shell.js"]).loader.implicitIncludesFor nestedFiles ⟨"./a.js"⟩ := by
    decide
  have hmeet : nestedFiles.Meet ⟨"./lib/shell.js"⟩ ⟨"/lib/shell.js"⟩ :=
    ⟨⟨["lib", "shell.js"]⟩, by rfl, by rfl⟩
  rw [hdiscover] at hspares
  exact hspares ⟨⟨"lib/shell.js"⟩, ⟨"./lib/shell.js"⟩⟩ (by simp) ⟨⟨"a.js"⟩, ⟨"./a.js"⟩⟩ (by simp) _
    hhelper hmeet

end Runner

end EngineTrials
