import EngineTrials.Bench.Suite
import EngineTrials.Proofs.Except
import EngineTrials.Proofs.FileSystem.Below
import EngineTrials.Proofs.Fixture.EntryPoints
import EngineTrials.Proofs.Load.Graph
import EngineTrials.Proofs.Run.Discovery
import EngineTrials.Proofs.Text.Utf8
import Mathlib.Data.Set.Card

/-! Suites of benchmark scripts. Below a folder a suite is gathered if and only if all the scripts
there are text, those without an entry point as well, and it has the others in the order of their
paths: the order in which a walk finds them. -/

namespace EngineTrials

theorem nodup_entryPoints (source : String) : (entryPoints source).Nodup := nodup_firstOccurrences _

variable {fs : FileSystem} {path : Path} {place : Location} {script : BenchScript}
  {names : List String} {children : List (String × Entry)} {content : List UInt8}

theorem BenchScript.ofFile_eq_ok_iff : BenchScript.ofFile fs path = .ok script ↔
    ∃ source, fs.readText path = .ok source ∧ script = .ofSource path source := by
  simp only [ofFile, Loader.readFixture]
  cases fs.readText path with
  | error fault => simp [Except.map]
  | ok source => simp [Except.map, eq_comm]

theorem isTree_ofText (text : String) : (Entry.ofText text).IsTree := .file _

theorem isStored_ofText (text : String) : (Entry.ofText text).IsStored := .file _

namespace BenchSuite

/-- A regular file below a folder that is a script by its extension. -/
structure IsScriptAt (path : Path) (folder : Entry) (names : List String)
    (content : List UInt8) : Prop where
  file : Entry.at? names folder = some (.file content)
  extension : (pathBelow path names).extension? = some scriptExtension

/-- What a suite holds that has been gathered below the folder that a path leads to. -/
structure Gathers (path : Path) (folder : Entry) (suite : BenchSuite) : Prop where
  /-- It has the scripts below the folder that have an entry point. -/
  mem_iff : ∀ script, script ∈ suite.scripts ↔ script.entryPoints ≠ [] ∧
    ∃ names source, IsScriptAt path folder names (Text.Utf8.encode source.toList) ∧
      script = .ofSource (pathBelow path names) source
  /-- The path of a script is that of the folder with the names that lead to the file. -/
  components : ∀ names content, IsScriptAt path folder names content →
    (pathBelow path names).components = path.components ++ names.map .name
  distinct : suite.scripts.Nodup
  increasing : suite.scripts.Pairwise fun a b => a.path.Before b.path
  /-- The order of these paths is that of the paths below the folder, which runs go by. -/
  relative : ∀ names content more other, IsScriptAt path folder names content →
    IsScriptAt path folder more other → ((pathBelow path names).Before (pathBelow path more) ↔
      (Runner.relativePath names).Before (Runner.relativePath more))
  /-- It is as large as the number of entry points, each with its script. -/
  size_eq : suite.size = Set.ncard
    {pair : BenchScript × String | pair.1 ∈ suite.scripts ∧ pair.2 ∈ pair.1.entryPoints}

theorem IsScriptAt.isFileName {folder : Entry} (h : IsScriptAt path folder names content)
    (htree : folder.IsTree) : ∀ name ∈ names, IsFileName name :=
  htree.isFileName (htree.mem_filesBelow_iff.2 ⟨content, h.file⟩)

theorem isScript_iff (hnames : ∀ name ∈ names, IsFileName name) (hne : names ≠ []) :
    isScript names = true ↔ (pathBelow path names).extension? = some scriptExtension := by
  obtain ⟨name, hname⟩ : ∃ name, names.getLast? = some name :=
    ⟨_, List.getLast?_eq_some_getLast hne⟩
  have hfile : (pathBelow path names).fileName? = some name :=
    (Runner.fileName?_foundAt hnames hne).trans hname
  rw [isScript, hname, Option.getD_some, Path.extension?, hfile, Option.bind_some, beq_iff_eq]

theorem components_pathBelow (h : ∀ name ∈ names, IsFileName name) :
    (pathBelow path names).components = path.components ++ names.map .name :=
  Path.components_foldl_join h

theorem before_pathBelow_iff {more : List String} (hnames : ∀ name ∈ names, IsFileName name)
    (hmore : ∀ name ∈ more, IsFileName name) :
    (pathBelow path names).Before (pathBelow path more) ↔
      (Runner.relativePath names).Before (Runner.relativePath more) := by
  refine @Path.before_below_iff _ _ path _ _ ?_ ?_
  · rw [components_pathBelow hnames, Path.components_relativePath hnames]
  · rw [components_pathBelow hmore, Path.components_relativePath hmore]

theorem mem_scripts_iff (htree : (Entry.folder children).IsTree) :
    names ∈ (Entry.folder children).filesBelow.filter isScript ↔
      ∃ content, IsScriptAt path (.folder children) names content := by
  rw [List.mem_filter]
  constructor
  · rintro ⟨hmem, hscript⟩
    obtain ⟨content, hat⟩ := htree.mem_filesBelow_iff.1 hmem
    have hne := Runner.ne_nil_of_at?_file hat
    exact ⟨content, hat, (isScript_iff (htree.isFileName hmem) hne).1 hscript⟩
  · rintro ⟨content, hat, hextension⟩
    have hmem := htree.mem_filesBelow_iff.2 ⟨content, hat⟩
    have hne := Runner.ne_nil_of_at?_file hat
    exact ⟨hmem, (isScript_iff (htree.isFileName hmem) hne).2 hextension⟩

theorem readText_file (hplace : fs.locate path = .ok place)
    (hfile : fs.entry? place = some (.file content)) {source : String} :
    fs.readText path = .ok source ↔ content = Text.Utf8.encode source.toList := by
  rw [← Text.Utf8.decode?_eq_some_iff]
  simp only [FileSystem.readText, hplace, FileSystem.textAt, FileSystem.bytesAt, hfile]
  cases Text.Utf8.decode? content with
  | none => simp
  | some text =>
    rw [Except.ok.injEq, Option.some.injEq, ← String.toList_inj, String.toList_ofList]

/-- A file below a folder makes a script if and only if it is text. -/
theorem ofFile_below (hplace : fs.locate path = .ok place)
    (hfolder : fs.entry? place = some (.folder children))
    (hstored : (Entry.folder children).IsStored)
    (hat : Entry.at? names (.folder children) = some (.file content)) :
    BenchScript.ofFile fs (pathBelow path names) = .ok script ↔
      ∃ source : String, content = Text.Utf8.encode source.toList ∧
        script = .ofSource (pathBelow path names) source := by
  have hfile : fs.entry? ⟨place.names ++ names⟩ = some (.file content) := by
    rw [FileSystem.entry?_append, hfolder, Option.bind_some, hat]
  have hlocate : fs.locate (pathBelow path names) = .ok ⟨place.names ++ names⟩ :=
    FileSystem.locate_below hplace (hstored.isEntryName hat) hfile nofun
  simp only [BenchScript.ofFile_eq_ok_iff, readText_file hlocate hfile]

theorem discover_file (hplace : fs.locate path = .ok place)
    (hfile : fs.entry? place = some (.file content)) (suite : BenchSuite) :
    discover fs path = .ok suite ↔ ∃ source, fs.readText path = .ok source ∧
      content = Text.Utf8.encode source.toList ∧ entryPoints source ≠ [] ∧
        suite = ⟨[.ofSource path source]⟩ := by
  have hisFile : fs.isFile path = true := FileSystem.isFile_iff.2 ⟨place, content, hplace, hfile⟩
  rw [discover, if_pos hisFile]
  constructor
  · intro h
    split at h
    case h_1 fault hfault => simp at h
    case h_2 script hok =>
      obtain ⟨source, hsource, rfl⟩ := BenchScript.ofFile_eq_ok_iff.1 hok
      split_ifs at h with hpoints
      exact ⟨source, hsource, (readText_file hplace hfile).1 hsource, hpoints,
        (Except.ok.inj h).symm⟩
  · rintro ⟨source, hsource, -, hpoints, rfl⟩
    rw [BenchScript.ofFile_eq_ok_iff.2 ⟨source, hsource, rfl⟩]
    exact if_neg hpoints

theorem discover_folder (hplace : fs.locate path = .ok place)
    (hfolder : fs.entry? place = some (.folder children)) (suite : BenchSuite) :
    discover fs path = .ok suite ↔ ∃ scripts,
      ((Entry.folder children).filesBelow.filter isScript).mapM
          (fun names => BenchScript.ofFile fs (pathBelow path names)) = .ok scripts ∧
        suite = ⟨scripts.filter fun s => s.entryPoints ≠ []⟩ := by
  rw [discover, if_neg (by simp [Runner.isFile_eq_false hplace hfolder]),
    Runner.filesBelow_eq hplace hfolder]
  split
  case h_1 fault hfault => simp [hfault]
  case h_2 scripts hok => simp [hok, eq_comm]

theorem exists_discover_iff (hplace : fs.locate path = .ok place)
    (hfolder : fs.entry? place = some (.folder children))
    (htree : (Entry.folder children).IsTree) (hstored : (Entry.folder children).IsStored) :
    (∃ suite, discover fs path = .ok suite) ↔
      ∀ names content, IsScriptAt path (.folder children) names content →
        ∃ source : String, content = Text.Utf8.encode source.toList := by
  have hmapM : (∃ suite, discover fs path = .ok suite) ↔
      ∀ names ∈ (Entry.folder children).filesBelow.filter isScript,
        ∃ script, BenchScript.ofFile fs (pathBelow path names) = .ok script := by
    rw [← exists_mapM_eq_ok_iff]
    simp only [discover_folder hplace hfolder]
    constructor
    · rintro ⟨-, scripts, hscripts, rfl⟩
      exact ⟨scripts, hscripts⟩
    · rintro ⟨scripts, hscripts⟩
      exact ⟨_, scripts, hscripts, rfl⟩
  rw [hmapM]
  constructor
  · intro h names content hscript
    obtain ⟨script, hok⟩ := h names ((mem_scripts_iff htree).2 ⟨content, hscript⟩)
    obtain ⟨source, hsource, -⟩ := (ofFile_below hplace hfolder hstored hscript.file).1 hok
    exact ⟨source, hsource⟩
  · intro h names hmem
    obtain ⟨content, hscript⟩ := (mem_scripts_iff htree).1 hmem
    obtain ⟨source, hsource⟩ := h names content hscript
    exact ⟨_, (ofFile_below hplace hfolder hstored hscript.file).2 ⟨source, hsource, rfl⟩⟩

theorem size_eq_ncard {suite : BenchSuite} (hscripts : suite.scripts.Nodup)
    (hpoints : ∀ script ∈ suite.scripts, script.entryPoints.Nodup) :
    suite.size = Set.ncard
      {pair : BenchScript × String | pair.1 ∈ suite.scripts ∧ pair.2 ∈ pair.1.entryPoints} := by
  -- a list of the pairs has no duplicate, for neither scripts nor names are repeated
  let pairs := suite.scripts.flatMap fun script => script.entryPoints.map (script, ·)
  have hnodup : pairs.Nodup := by
    rw [List.nodup_flatMap]
    refine ⟨fun script hscript => ?_, hscripts.imp fun {a b} hne pair ha hb => ?_⟩
    · exact (hpoints script hscript).map fun s t hpair => (Prod.mk.inj hpair).2
    · obtain ⟨s, -, rfl⟩ := List.mem_map.1 ha
      obtain ⟨t, -, hpair⟩ := List.mem_map.1 hb
      exact hne (Prod.mk.inj hpair).1.symm
  have hset : {pair : BenchScript × String |
      pair.1 ∈ suite.scripts ∧ pair.2 ∈ pair.1.entryPoints} = pairs.toFinset := by
    ext ⟨script, name⟩
    simp [pairs]
  rw [hset, Set.ncard_coe_finset, List.toFinset_card_of_nodup hnodup]
  simp [size, pairs, List.length_flatMap]

section

variable {scripts : List BenchScript} (hscripts :
  ((Entry.folder children).filesBelow.filter isScript).mapM
    (fun names => BenchScript.ofFile fs (pathBelow path names)) = .ok scripts)

include hscripts

theorem mem_of_read (hplace : fs.locate path = .ok place)
    (hfolder : fs.entry? place = some (.folder children))
    (htree : (Entry.folder children).IsTree) (hstored : (Entry.folder children).IsStored) :
    script ∈ scripts ↔ ∃ names source,
      IsScriptAt path (.folder children) names (Text.Utf8.encode source.toList) ∧
        script = .ofSource (pathBelow path names) source := by
  rw [mem_of_mapM_eq_ok hscripts]
  constructor
  · rintro ⟨names, hnames, hok⟩
    obtain ⟨content, hscript⟩ := (mem_scripts_iff htree).1 hnames
    obtain ⟨source, rfl, heq⟩ := (ofFile_below hplace hfolder hstored hscript.file).1 hok
    exact ⟨names, source, hscript, heq⟩
  · rintro ⟨names, source, hscript, rfl⟩
    exact ⟨names, (mem_scripts_iff htree).2 ⟨_, hscript⟩,
      (ofFile_below hplace hfolder hstored hscript.file).2 ⟨source, rfl, rfl⟩⟩

/-- The scripts that are read have the paths that the walk finds, in its order. -/
theorem map_path_of_read : scripts.map BenchScript.path =
    ((Entry.folder children).filesBelow.filter isScript).map (pathBelow path) := by
  rw [← List.forall₂_eq_eq_eq, List.forall₂_map_left_iff, List.forall₂_map_right_iff]
  refine (mapM_eq_ok_iff.1 hscripts).flip.imp fun script names hok => ?_
  obtain ⟨source, -, rfl⟩ := BenchScript.ofFile_eq_ok_iff.1 hok
  rfl

theorem pairwise_of_read (htree : (Entry.folder children).IsTree) :
    scripts.Pairwise fun a b => a.path.Before b.path := by
  have hbelow : ∀ names ∈ (Entry.folder children).filesBelow.filter isScript,
      ∀ name ∈ names, IsFileName name := fun names hnames =>
    htree.isFileName (List.mem_of_mem_filter hnames)
  rw [← List.pairwise_map (f := BenchScript.path) (R := Path.Before), map_path_of_read hscripts,
    List.pairwise_map]
  refine (htree.pairwise_filesBelow.filter isScript).imp_of_mem fun ha hb hlt => ?_
  rw [before_pathBelow_iff (hbelow _ ha) (hbelow _ hb)]
  exact Path.before_of_lt (Path.components_relativePath (hbelow _ ha))
    (Path.components_relativePath (hbelow _ hb)) hlt

end

theorem gathers_of_discover {suite : BenchSuite} (hplace : fs.locate path = .ok place)
    (hfolder : fs.entry? place = some (.folder children))
    (htree : (Entry.folder children).IsTree) (hstored : (Entry.folder children).IsStored)
    (h : discover fs path = .ok suite) : Gathers path (.folder children) suite := by
  obtain ⟨scripts, hscripts, rfl⟩ := (discover_folder hplace hfolder suite).1 h
  have hmem : ∀ script, script ∈ scripts.filter (fun s => s.entryPoints ≠ []) ↔
      script.entryPoints ≠ [] ∧ ∃ names source,
        IsScriptAt path (.folder children) names (Text.Utf8.encode source.toList) ∧
          script = .ofSource (pathBelow path names) source := by
    intro script
    rw [List.mem_filter, decide_eq_true_iff, and_comm,
      mem_of_read hscripts hplace hfolder htree hstored]
  have hincreasing : (scripts.filter fun s => s.entryPoints ≠ []).Pairwise
      fun a b => a.path.Before b.path := (pairwise_of_read hscripts htree).filter _
  have hdistinct : (scripts.filter fun s => s.entryPoints ≠ []).Nodup := by
    refine hincreasing.imp fun {a b} hbefore heq => ?_
    exact Path.not_before_self a.path (heq ▸ hbefore)
  constructor
  case mem_iff => exact hmem
  case components =>
    intro names content hscript
    exact components_pathBelow (hscript.isFileName htree)
  case distinct => exact hdistinct
  case increasing => exact hincreasing
  case relative =>
    intro names content more other hscript hother
    exact before_pathBelow_iff (hscript.isFileName htree) (hother.isFileName htree)
  case size_eq =>
    refine size_eq_ncard hdistinct fun script hscript => ?_
    obtain ⟨-, names, source, -, rfl⟩ := (hmem script).1 hscript
    exact nodup_entryPoints _

/-- A single file makes a suite if and only if it can be read, is text and has an entry point. Below
a folder a suite is gathered if and only if all the scripts there are text. -/
theorem discover_gathers (hplace : fs.locate path = .ok place) :
    (∀ content, fs.entry? place = some (.file content) → ∀ suite,
      discover fs path = .ok suite ↔ ∃ source, fs.readText path = .ok source ∧
        content = Text.Utf8.encode source.toList ∧ entryPoints source ≠ [] ∧
          suite = ⟨[.ofSource path source]⟩) ∧
    ∀ children, fs.entry? place = some (.folder children) → (Entry.folder children).IsTree →
      (Entry.folder children).IsStored →
        ((∃ suite, discover fs path = .ok suite) ↔
          ∀ names content, IsScriptAt path (.folder children) names content →
            ∃ source : String, content = Text.Utf8.encode source.toList) ∧
        ∀ suite, discover fs path = .ok suite → Gathers path (.folder children) suite := by
  refine ⟨fun content hfile suite => discover_file hplace hfile suite, ?_⟩
  intro children hfolder htree hstored
  exact ⟨exists_discover_iff hplace hfolder htree hstored,
    fun suite hsuite => gathers_of_discover hplace hfolder htree hstored hsuite⟩

/-! A folder with a script that has the name of a folder at its start, a script without an entry
point, a link, and a file that is no script and no text. -/

def benchFolder : List (String × Entry) :=
  [("d-x.js", .ofText "function testC ()"), ("to.js", .link "d-x.js"), ("notes.txt", .file [0xFF]),
    ("d", .folder [("b.js", .ofText "function helper()"),
      ("a.js", .ofText "function testB()\nfunction testA()")])]

def benchFiles : FileSystem := ⟨[("bench", .folder benchFolder)], ⟨[]⟩⟩

theorem isTree_benchFolder : (Entry.folder benchFolder).IsTree := by
  have hinner : (Entry.folder [("b.js", .ofText "function helper()"),
      ("a.js", .ofText "function testB()\nfunction testA()")]).IsTree :=
    .folder (by decide) (by decide) (by simp [isTree_ofText])
  exact .folder (by decide) (by decide)
    (by simp [benchFolder, isTree_ofText, Entry.IsTree.file, Entry.IsTree.link, hinner])

theorem isStored_benchFolder : (Entry.folder benchFolder).IsStored := by
  have hinner : (Entry.folder [("b.js", .ofText "function helper()"),
      ("a.js", .ofText "function testB()\nfunction testA()")]).IsStored :=
    .folder (by decide) (by simp [isStored_ofText])
  exact .folder (by decide)
    (by simp [benchFolder, isStored_ofText, Entry.IsStored.file, Entry.IsStored.link, hinner])

theorem filesBelow_benchFolder : (Entry.folder benchFolder).filesBelow =
    [["d", "a.js"], ["d", "b.js"], ["d-x.js"], ["notes.txt"]] := by
  simp [Entry.filesBelow_folder, sortByName, benchFolder, Entry.ofText, List.mergeSort,
    List.MergeSort.Internal.splitInTwo]

theorem discover_benchFiles : discover benchFiles ⟨"bench"⟩ =
    .ok ⟨[⟨⟨"bench/d/a.js"⟩, ["testB", "testA"]⟩, ⟨⟨"bench/d-x.js"⟩, ["testC"]⟩]⟩ := by
  have hplace : benchFiles.locate ⟨"bench"⟩ = .ok ⟨["bench"]⟩ := by rfl
  have hfolder : benchFiles.entry? ⟨["bench"]⟩ = some (.folder benchFolder) := by rfl
  have hread : ∀ names source, Entry.at? names (.folder benchFolder) = some (.ofText source) →
      BenchScript.ofFile benchFiles (pathBelow ⟨"bench"⟩ names) =
        .ok (.ofSource (pathBelow ⟨"bench"⟩ names) source) := fun names source hat =>
    (ofFile_below hplace hfolder isStored_benchFolder hat).2 ⟨source, rfl, rfl⟩
  have ha : entryPoints "function testB()\nfunction testA()" = ["testB", "testA"] := by
    decide +kernel
  have hb : entryPoints "function helper()" = [] := by decide +kernel
  have hc : entryPoints "function testC ()" = ["testC"] := by decide +kernel
  refine (discover_folder hplace hfolder _).2
    ⟨[.ofSource ⟨"bench/d/a.js"⟩ "function testB()\nfunction testA()",
      .ofSource ⟨"bench/d/b.js"⟩ "function helper()",
      .ofSource ⟨"bench/d-x.js"⟩ "function testC ()"], ?_, ?_⟩
  · rw [mapM_eq_ok_iff, filesBelow_benchFolder]
    exact .cons (hread _ _ rfl) (.cons (hread _ _ rfl) (.cons (hread _ _ rfl) .nil))
  · simp [BenchScript.ofSource, ha, hb, hc]

/-- As texts, the paths of the two scripts of the folder are in the other order. One of them makes a
suite by itself, and the script without an entry point does not. -/
theorem discover_gathers_benchFiles :
    benchFiles.locate ⟨"bench"⟩ = .ok ⟨["bench"]⟩ ∧
      benchFiles.entry? ⟨["bench"]⟩ = some (.folder benchFolder) ∧
      (Entry.folder benchFolder).IsTree ∧ (Entry.folder benchFolder).IsStored ∧
      discover benchFiles ⟨"bench"⟩ =
        .ok ⟨[⟨⟨"bench/d/a.js"⟩, ["testB", "testA"]⟩, ⟨⟨"bench/d-x.js"⟩, ["testC"]⟩]⟩ ∧
      Gathers ⟨"bench"⟩ (.folder benchFolder)
        ⟨[⟨⟨"bench/d/a.js"⟩, ["testB", "testA"]⟩, ⟨⟨"bench/d-x.js"⟩, ["testC"]⟩]⟩ ∧
      discover benchFiles ⟨"bench/d-x.js"⟩ = .ok ⟨[⟨⟨"bench/d-x.js"⟩, ["testC"]⟩]⟩ ∧
      ∀ suite, discover benchFiles ⟨"bench/d/b.js"⟩ ≠ .ok suite := by
  have hplace : benchFiles.locate ⟨"bench"⟩ = .ok ⟨["bench"]⟩ := by rfl
  have hfolder : benchFiles.entry? ⟨["bench"]⟩ = some (.folder benchFolder) := by rfl
  have hgathers := (discover_gathers hplace).2 benchFolder hfolder isTree_benchFolder
    isStored_benchFolder
  have hc : benchFiles.locate ⟨"bench/d-x.js"⟩ = .ok ⟨["bench", "d-x.js"]⟩ := by rfl
  have hb : benchFiles.locate ⟨"bench/d/b.js"⟩ = .ok ⟨["bench", "d", "b.js"]⟩ := by rfl
  have hreadC : benchFiles.readText ⟨"bench/d-x.js"⟩ = .ok "function testC ()" :=
    (readText_file hc rfl).2 rfl
  have hreadB : benchFiles.readText ⟨"bench/d/b.js"⟩ = .ok "function helper()" :=
    (readText_file hb rfl).2 rfl
  have hpoints : entryPoints "function testC ()" = ["testC"] := by decide +kernel
  have hnone : entryPoints "function helper()" = [] := by decide +kernel
  refine ⟨hplace, hfolder, isTree_benchFolder, isStored_benchFolder, discover_benchFiles,
    hgathers.2 _ discover_benchFiles, ?_, fun suite hsuite => ?_⟩
  · refine ((discover_gathers hc).1 _ rfl _).2 ⟨_, hreadC, rfl, by simp [hpoints], ?_⟩
    rw [BenchScript.ofSource, hpoints]
  · obtain ⟨source, hsource, -, hsome, -⟩ := ((discover_gathers hb).1 _ rfl suite).1 hsuite
    obtain rfl := Except.ok.inj (hreadB.symm.trans hsource)
    exact hsome hnone

end BenchSuite

end EngineTrials
