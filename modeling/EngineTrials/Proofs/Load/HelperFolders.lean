import EngineTrials.Load.Loader
import EngineTrials.Proofs.FileSystem.Lookup
import Mathlib.Data.List.Infix

/-! The helper files of a fixture. They are those of the folders from the source root down to the
fixture's own folder, however the path of the fixture is spelled, with one exception: a path that is
a name alone has an empty text for its folder, which leads nowhere, and only the folder that
relative paths start from is searched. -/

namespace EngineTrials

/-- The folders from a place down to where names lead from it, outermost first. -/
def Location.downTo (root : Location) (names : List String) : List Location :=
  names.inits.map fun between => ⟨root.names ++ between⟩

theorem Location.downTo_eq (root : Location) (names : List String) :
    root.downTo names =
      ((List.range names.length).map fun k => ⟨root.names ++ names.take k⟩) ++
        [⟨root.names ++ names⟩] := by
  have hinits : names.inits = (List.range (names.length + 1)).map names.take :=
    List.ext_getElem (by simp) fun k _ _ => by simp [List.getElem_inits]
  rw [downTo, hinits, List.range_succ, List.map_append, List.map_append, List.map_map,
    List.map_singleton, List.map_singleton, List.take_length]
  rfl

theorem Path.empty_join (p : Path) : (⟨""⟩ : Path).join p = p := by
  unfold join
  split <;> simp

section

variable {α β : Type} {c : α → Prop} [DecidablePred c]

theorem length_filterMap_ite_le (g : α → Option β) (items : List α) :
    (items.filterMap fun a => if c a then g a else none).length ≤ (items.filterMap g).length := by
  induction items with
  | nil => exact Nat.le_refl 0
  | cons a rest ih =>
    cases hg : g a with
    | none => simpa [hg] using ih
    | some b =>
      by_cases hc : c a
      · simpa [hg, hc] using ih
      · simpa [hg, hc] using Nat.le_succ_of_le ih

/-- Nothing is left out by a condition that all values meet, and something by any other one. -/
theorem filterMap_ite_eq_iff {g : α → Option β} {items : List α} :
    (items.filterMap fun a => if c a then g a else none) = items.filterMap g ↔
      ∀ a ∈ items, g a ≠ none → c a := by
  induction items with
  | nil => simp
  | cons a rest ih =>
    rw [List.forall_mem_cons, ← ih]
    cases hg : g a with
    | none => simp [hg]
    | some b =>
      by_cases hc : c a
      · simp [hg, hc]
      · have hlength := length_filterMap_ite_le (c := c) g rest
        refine iff_of_false (fun heq => ?_) (fun h => hc (h.1 nofun))
        rw [List.filterMap_cons_none (by simp [hc]), List.filterMap_cons_some hg] at heq
        rw [heq, List.length_cons] at hlength
        omega

theorem flatMap_filterMap_ite_eq_iff {γ : Type} {c : α → γ → Prop} [∀ a, DecidablePred (c a)]
    {g : α → γ → Option β} {items : List α} {others : List γ} :
    (items.flatMap fun a => others.filterMap fun b => if c a b then g a b else none) =
        (items.flatMap fun a => others.filterMap (g a)) ↔
      ∀ a ∈ items, ∀ b ∈ others, g a b ≠ none → c a b := by
  have hpairs : ∀ g : α → γ → Option β, (items.flatMap fun a => others.filterMap (g a)) =
      (items.flatMap fun a => others.map (a, ·)).filterMap fun p => g p.1 p.2 := by
    intro g
    rw [List.filterMap_flatMap]
    exact List.flatMap_congr fun a _ => by rw [List.filterMap_map]; rfl
  rw [hpairs g, hpairs fun a b => if c a b then g a b else none, filterMap_ite_eq_iff]
  simp only [List.mem_flatMap, List.mem_map]
  constructor
  · intro h a ha b hb
    exact h (a, b) ⟨a, ha, b, hb, rfl⟩
  · rintro h _ ⟨a, ha, b, hb, rfl⟩
    exact h a ha b hb

end

namespace Loader

variable {loader : Loader} {fs : FileSystem} {fixture own : Path} {root folder : Location}
  {below : List String} {children : List (String × Entry)}

/-- The helper files of folders, folder by folder, and in each folder name by name. -/
def helpersIn (loader : Loader) (fs : FileSystem) (folders : List Location) : List Location :=
  folders.flatMap fun folder =>
    loader.implicitIncludes.filterMap fun name => fs.fileFrom? folder ⟨name⟩

/-- A folder is searched for a fixture: for one that is named without a folder only the working
folder is. -/
def Searches (fs : FileSystem) (fixture : Path) (folder : Location) : Prop :=
  fixture.parent? = some ⟨""⟩ → folder = fs.workingFolder

instance (fs : FileSystem) (fixture : Path) (folder : Location) :
    Decidable (Searches fs fixture folder) :=
  inferInstanceAs (Decidable (_ = _ → _ = _))

theorem implicitIncludesFor_eq (h : fixture.parent? = some own) :
    loader.implicitIncludesFor fs fixture =
      ((loader.includeFolders fs own).flatMap fun dir =>
        loader.implicitIncludes.map fun name => dir.join ⟨name⟩).filter fs.isFile := by
  unfold implicitIncludesFor
  split
  case isTrue hnone => simp [hnone]
  case isFalse => rw [h]

theorem map_locate_filter_isFile (fs : FileSystem) (paths : List Path) :
    (paths.filter fs.isFile).map fs.locate =
      (paths.filterMap (fs.fileFrom? fs.workingFolder)).map .ok := by
  induction paths with
  | nil => rfl
  | cons p rest ih =>
    cases hfile : fs.fileFrom? fs.workingFolder p with
    | none =>
      have hno : fs.isFile p = false := by
        rw [Bool.eq_false_iff]
        intro hyes
        obtain ⟨place, content, hplace, hcontent⟩ := FileSystem.isFile_iff.1 hyes
        rw [FileSystem.fileFrom?_eq_some_iff.2 ⟨hplace, content, hcontent⟩] at hfile
        contradiction
      rw [List.filter_cons_of_neg (by simp [hno]), List.filterMap_cons_none hfile, ih]
    | some place =>
      obtain ⟨hplace, content, hcontent⟩ := FileSystem.fileFrom?_eq_some_iff.1 hfile
      have hyes := FileSystem.isFile_iff.2 ⟨place, content, hplace, hcontent⟩
      rw [List.filter_cons_of_pos hyes, List.filterMap_cons_some hfile, List.map_cons, List.map_cons,
        ih]
      exact congrArg (· :: _) hplace

theorem includeFolders_below (hroot : fs.locate loader.sourceRoot = .ok root)
    (hown : fs.locate own = .ok folder) (hbelow : folder.names = root.names ++ below) :
    loader.includeFolders fs own = (root.downTo below).map Location.toPath := by
  have hbelowRoot : root.names.isPrefixOf folder.names = true :=
    List.isPrefixOf_iff_prefix.2 ⟨below, hbelow.symm⟩
  have hlength : folder.names.length + 1 - root.names.length = below.length + 1 := by
    rw [hbelow, List.length_append]
    omega
  simp only [includeFolders, hroot, hown, if_pos hbelowRoot, hlength]
  refine List.ext_getElem (by simp [Location.downTo]) fun k hk _ => ?_
  simp only [Location.downTo, List.getElem_map, List.getElem_range, List.getElem_inits, hbelow,
    List.take_length_add_append]

/-- An empty path leads nowhere. -/
theorem includeFolders_empty (loader : Loader) (fs : FileSystem) :
    loader.includeFolders fs ⟨""⟩ = [⟨""⟩] := by
  have hmissing : fs.locate ⟨""⟩ = .error .missing := rfl
  unfold includeFolders
  rw [hmissing]
  cases fs.locate loader.sourceRoot <;> rfl

/-- The folders above the fixture's folder are folders. -/
theorem exists_folder_of_downTo {place : Location}
    (hfolder : fs.entry? folder = some (.folder children))
    (hbelow : folder.names = root.names ++ below) (h : place ∈ root.downTo below) :
    ∃ children, fs.entry? place = some (.folder children) := by
  obtain ⟨between, hbetween, rfl⟩ := List.mem_map.1 h
  obtain ⟨rest, rfl⟩ := (List.mem_inits ..).1 hbetween
  by_cases hrest : rest = []
  · refine ⟨children, ?_⟩
    rw [← hfolder]
    congr 2
    rw [hbelow, hrest, List.append_nil]
  · refine FileSystem.exists_folder_of_append hrest (e := .folder children) ?_
    rw [List.append_assoc, ← hbelow]
    exact hfolder

/-- The helper files that are found are those that are looked up. -/
theorem map_locate_implicitIncludesFor (hfs : (Entry.folder fs.children).IsStored)
    (hparent : fixture.parent? = some own)
    (hfolder : fs.entry? folder = some (.folder children))
    (hempty : own.text = "" → folder = fs.workingFolder)
    (hown : own.text ≠ "" → fs.locate own = .ok folder)
    (hroot : fs.locate loader.sourceRoot = .ok root)
    (hbelow : folder.names = root.names ++ below) :
    (loader.implicitIncludesFor fs fixture).map fs.locate =
      ((root.downTo below).flatMap fun place => loader.implicitIncludes.filterMap fun name =>
        if Searches fs fixture place then fs.fileFrom? place ⟨name⟩ else none).map .ok := by
  rw [implicitIncludesFor_eq hparent, map_locate_filter_isFile, List.filterMap_flatMap]
  congr 1
  by_cases hbare : own.text = ""
  · obtain ⟨text⟩ := own
    obtain rfl : text = "" := hbare
    have hlast : (⟨root.names ++ below⟩ : Location) = fs.workingFolder := by
      rw [← hbelow, ← hempty rfl]
    have hfront : ∀ k ∈ List.range below.length,
        (⟨root.names ++ below.take k⟩ : Location) ≠ fs.workingFolder := by
      intro k hk heq
      have hlengths := congrArg (fun l => l.names.length) (heq.trans hlast.symm)
      simp only [List.length_append, List.length_take] at hlengths
      have := List.mem_range.1 hk
      omega
    rw [includeFolders_empty, List.flatMap_singleton, Location.downTo_eq, List.flatMap_append,
      List.flatMap_singleton, List.flatMap_map, hlast, List.filterMap_map]
    simp only [Searches, hparent, true_imp_iff]
    rw [List.flatMap_eq_nil_iff.2 fun k hk => by simp [hfront k hk], List.nil_append]
    refine List.filterMap_congr fun name _ => ?_
    rw [Function.comp_apply, Path.empty_join, if_pos trivial]
  · rw [includeFolders_below hroot (hown hbare) hbelow, List.flatMap_map]
    refine List.flatMap_congr fun place hplace => ?_
    obtain ⟨others, hothers⟩ := exists_folder_of_downTo hfolder hbelow hplace
    rw [List.filterMap_map]
    refine List.filterMap_congr fun name _ => ?_
    have hsearched : Searches fs fixture place := by
      intro hempty
      obtain rfl := Option.some.inj (hparent.symm.trans hempty)
      exact absurd rfl hbare
    rw [Function.comp_apply, FileSystem.fileFrom?_join hfs hothers, if_pos hsearched]

theorem includeFolders_outside (hown : fs.locate own = .ok folder)
    (houtside : ∀ root below, fs.locate loader.sourceRoot = .ok root →
      folder.names ≠ root.names ++ below) : loader.includeFolders fs own = [own] := by
  unfold includeFolders
  rw [hown]
  cases hroot : fs.locate loader.sourceRoot with
  | error fault => rfl
  | ok root =>
    refine if_neg fun hprefix => ?_
    obtain ⟨below, hbelow⟩ := List.isPrefixOf_iff_prefix.1 hprefix
    exact houtside root below hroot hbelow.symm

/-- For a fixture in a folder below the source root the helper files are those of all folders from
the root down to its own one, folder by folder and name by name, if and only if none of them is
where it is not searched for: above the working folder if the fixture is named without a folder, or
behind a path that is too long. For any other fixture its own folder is searched. -/
theorem implicitIncludesFor_below_iff (hfs : (Entry.folder fs.children).IsStored)
    (hfixture : fs.isFile fixture = true) :
    ∃ own folder, fixture.parent? = some own ∧ fs.FolderOf fixture folder ∧
      (∀ root below, fs.locate loader.sourceRoot = .ok root →
        folder.names = root.names ++ below →
          ((loader.implicitIncludesFor fs fixture).map fs.locate =
              (loader.helpersIn fs (root.downTo below)).map .ok ↔
            ∀ place ∈ root.downTo below, ∀ name ∈ loader.implicitIncludes,
              fs.fileFrom? place ⟨name⟩ ≠ none → Searches fs fixture place)) ∧
      ((∀ root below, fs.locate loader.sourceRoot = .ok root →
          folder.names ≠ root.names ++ below) →
        loader.implicitIncludesFor fs fixture =
          (loader.implicitIncludes.map fun name => own.join ⟨name⟩).filter fs.isFile) := by
  obtain ⟨own, folder, children, hparent, hfolderOf, hfolder, hempty, hown⟩ :=
    FileSystem.exists_folderOf hfixture
  refine ⟨own, folder, hparent, hfolderOf, fun root below hroot hbelow => ?_, fun houtside => ?_⟩
  · have hok : Function.Injective (Except.ok : Location → Except FileFault Location) :=
      fun _ _ => Except.ok.inj
    rw [map_locate_implicitIncludesFor hfs hparent hfolder hempty hown hroot hbelow,
      (List.map_injective_iff.2 hok).eq_iff, helpersIn, flatMap_filterMap_ite_eq_iff]
  · rw [implicitIncludesFor_eq hparent]
    by_cases hbare : own.text = ""
    · obtain ⟨text⟩ := own
      obtain rfl : text = "" := hbare
      rw [includeFolders_empty, List.flatMap_singleton]
    · rw [includeFolders_outside (hown hbare) houtside, List.flatMap_singleton]

/-- A fixture in a folder, and a helper file in the folder above. -/
def projectFiles (workingFolder : Location) : FileSystem :=
  ⟨[("proj", .folder [("shell.js", .file []), ("sub", .folder [("t.js", .file [])])])],
    workingFolder⟩

def projectLoader : Loader := ⟨⟨"/proj"⟩, ["shell.js"]⟩

theorem isStored_projectFiles (workingFolder : Location) :
    (Entry.folder (projectFiles workingFolder).children).IsStored := by
  have hsub : (Entry.folder [("t.js", .file [])]).IsStored :=
    .folder (by decide) (by simp [Entry.IsStored.file])
  have hproj : (Entry.folder
      [("shell.js", .file []), ("sub", .folder [("t.js", .file [])])]).IsStored :=
    .folder (by decide) (by simp [Entry.IsStored.file, hsub])
  have hname : IsEntryName "proj" := by decide
  exact .folder (by simp [projectFiles, hname]) (by simp [projectFiles, hproj])

/-- A fixture that is named with its folder gets the helper file of the folder above. -/
theorem implicitIncludesFor_below_named :
    (Entry.folder (projectFiles ⟨["proj"]⟩).children).IsStored ∧
      (projectFiles ⟨["proj"]⟩).isFile ⟨"sub/t.js"⟩ = true ∧
      (projectLoader.implicitIncludesFor (projectFiles ⟨["proj"]⟩) ⟨"sub/t.js"⟩).map
          (projectFiles ⟨["proj"]⟩).locate = [.ok ⟨["proj", "shell.js"]⟩] := by
  have hfixture : (projectFiles ⟨["proj"]⟩).isFile ⟨"sub/t.js"⟩ = true := by rfl
  refine ⟨isStored_projectFiles _, hfixture, ?_⟩
  obtain ⟨own, folder, -, hfolder, hbelow, -⟩ :=
    @implicitIncludesFor_below_iff projectLoader _ _ (isStored_projectFiles _) hfixture
  obtain rfl : folder = ⟨["proj", "sub"]⟩ :=
    hfolder.unique ⟨[.name "sub"], "t.js", by decide, by rfl⟩
  refine ((hbelow ⟨["proj"]⟩ ["sub"] (by rfl) rfl).2 ?_).trans ?_
  · decide
  · decide

/-- A fixture that is named without a folder does not get it. -/
theorem not_implicitIncludesFor_below_bare :
    (Entry.folder (projectFiles ⟨["proj", "sub"]⟩).children).IsStored ∧
      (projectFiles ⟨["proj", "sub"]⟩).isFile ⟨"t.js"⟩ = true ∧
      (projectFiles ⟨["proj", "sub"]⟩).FolderOf ⟨"t.js"⟩ ⟨["proj", "sub"]⟩ ∧
      (projectFiles ⟨["proj", "sub"]⟩).locate projectLoader.sourceRoot = .ok ⟨["proj"]⟩ ∧
      (projectLoader.implicitIncludesFor (projectFiles ⟨["proj", "sub"]⟩) ⟨"t.js"⟩).map
          (projectFiles ⟨["proj", "sub"]⟩).locate ≠
        (projectLoader.helpersIn (projectFiles ⟨["proj", "sub"]⟩)
          ((⟨["proj"]⟩ : Location).downTo ["sub"])).map .ok := by
  refine ⟨isStored_projectFiles _, by rfl, ⟨[], "t.js", by decide, by rfl⟩, by rfl, ?_⟩
  decide

end Loader

end EngineTrials
