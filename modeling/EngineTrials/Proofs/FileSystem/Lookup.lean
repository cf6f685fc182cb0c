import EngineTrials.Proofs.FileSystem.Canonical
import EngineTrials.Proofs.FileSystem.Parent

/-! Looking up a file from a folder. A path that is taken from the path of a folder leads where it
leads from the folder itself: along the names of a folder there is no link to follow. Only its
length can keep it from leading there. -/

namespace EngineTrials

open Text (pieces)

/-- A name that a file system can hold. -/
structure IsEntryName (name : String) : Prop extends IsFileName name where
  no_zero : '\x00' ∉ name.toList
  fits : name.utf8ByteSize ≤ FileSystem.nameLimit

instance (name : String) : Decidable (IsEntryName name) :=
  decidable_of_iff (IsFileName name ∧ '\x00' ∉ name.toList ∧
      name.utf8ByteSize ≤ FileSystem.nameLimit)
    ⟨fun ⟨hname, hzero, hfits⟩ => ⟨hname, hzero, hfits⟩,
      fun h => ⟨h.toIsFileName, h.no_zero, h.fits⟩⟩

/-- An entry with names that a file system can hold. -/
inductive Entry.IsStored : Entry → Prop
  | file (content : List UInt8) : IsStored (.file content)
  | link (target : String) : IsStored (.link target)
  | folder {children : List (String × Entry)} : (∀ c ∈ children, IsEntryName c.1) →
      (∀ c ∈ children, IsStored c.2) → IsStored (.folder children)

theorem Entry.IsStored.isEntryName {e inner : Entry} {names : List String} (h : e.IsStored)
    (hat : Entry.at? names e = some inner) : ∀ name ∈ names, IsEntryName name := by
  induction names generalizing e with
  | nil => nofun
  | cons name rest ih =>
    obtain ⟨next, hnext, hrest⟩ := Option.bind_eq_some_iff.1 hat
    cases h with
    | file content => simp [Entry.child?] at hnext
    | link target => simp [Entry.child?] at hnext
    | folder hnames hstored =>
      have hmem := lookup_mem hnext
      exact List.forall_mem_cons.2 ⟨hnames _ hmem, ih (hstored _ hmem) hrest⟩

theorem IsFileName.ofPiece {name : String} (h : IsFileName name) :
    Step.ofPiece name.toList = .name name := by
  have hhere : name.toList ≠ ['.'] := fun heq => h.ne_here (String.toList_inj.1 heq)
  have hup : name.toList ≠ ['.', '.'] := fun heq => h.ne_up (String.toList_inj.1 heq)
  simp [Step.ofPiece, h.toList_ne_nil, hhere, hup]

namespace Location

variable {folder : Location} {name : String}

theorem toPath_join (hfolder : folder.IsPlain) (hname : Path.isAbsolute ⟨name⟩ = false) :
    folder.toPath.join ⟨name⟩ =
      ⟨folder.names.foldl (fun text name => text ++ "/" ++ name) "" ++ "/" ++ name⟩ := by
  rw [Path.join, if_neg (by simp [hname])]
  obtain ⟨names⟩ := folder
  obtain rfl | ⟨front, last, rfl⟩ := names.eq_nil_or_concat
  · rfl
  · rw [List.concat_eq_append] at hfolder ⊢
    have hlast : IsFileName last := hfolder last (by simp)
    have htext : (toPath ⟨front ++ [last]⟩).text =
        (front ++ [last]).foldl (fun text name => text ++ "/" ++ name) "" := by
      unfold toPath
      split
      · simp_all
      · rfl
    have hend : (toPath ⟨front ++ [last]⟩).text.toList.getLast? = last.toList.getLast? := by
      rw [htext, List.foldl_append, List.foldl_cons, List.foldl_nil, String.toList_append,
        List.getLast?_append_of_ne_nil _ hlast.toList_ne_nil]
    obtain ⟨c, hc⟩ := List.getLast?_isSome.2 hlast.toList_ne_nil |> Option.isSome_iff_exists.1
    have hslash : c ≠ '/' := by
      rintro rfl
      exact hlast.no_slash (List.mem_of_getLast? hc)
    rw [hend, hc]
    simp [htext]

theorem toList_toPath_join (hfolder : folder.IsPlain) (hname : Path.isAbsolute ⟨name⟩ = false) :
    (folder.toPath.join ⟨name⟩).text.toList =
      (folder.names.flatMap fun name => '/' :: name.toList) ++ '/' :: name.toList := by
  rw [toPath_join hfolder hname]
  simp [toList_foldl_slash]

theorem isAbsolute_toPath_join (hfolder : folder.IsPlain)
    (hname : Path.isAbsolute ⟨name⟩ = false) :
    (folder.toPath.join ⟨name⟩).isAbsolute = true := by
  rw [Path.isAbsolute, toList_toPath_join hfolder hname]
  cases folder.names <;> simp

theorem steps_toPath_join (hfolder : folder.IsPlain) (hname : Path.isAbsolute ⟨name⟩ = false) :
    (folder.toPath.join ⟨name⟩).steps = folder.names.map .name ++ (⟨name⟩ : Path).steps := by
  have hrelative : (⟨name⟩ : Path).body = name.toList := by rw [Path.body, if_neg (by simp [hname])]
  have habsolute : (folder.toPath.join ⟨name⟩).body =
      ((folder.names.flatMap fun name => '/' :: name.toList) ++ '/' :: name.toList).drop 1 := by
    rw [Path.body, if_pos (isAbsolute_toPath_join hfolder hname), toList_toPath_join hfolder hname]
  rw [Path.steps_eq, Path.steps_eq, hrelative, habsolute]
  obtain ⟨names⟩ := folder
  cases names with
  | nil => rfl
  | cons first rest =>
    have hbody : (((first :: rest).flatMap fun name => '/' :: name.toList) ++
        '/' :: name.toList).drop 1 =
          (Runner.relativePath (first :: rest)).text.toList ++ '/' :: name.toList := by
      rw [toList_relativePath]
      simp
    rw [hbody, Text.pieces_append_cons, Path.pieces_relativePath hfolder (by simp), List.map_append,
      List.map_map]
    congr 1
    exact List.map_congr_left fun other hother => (hfolder other hother).ofPiece

end Location

namespace FileSystem

variable {fs : FileSystem} {here folder place : Location} {steps : List Step} {links : Nat}
  {names : List String} {children : List (String × Entry)} {name : String} {p : Path}

/-- The names of a folder lead to it without a link. -/
theorem follow_folder (hfits : ∀ name ∈ names, name.utf8ByteSize ≤ nameLimit)
    (hfolder : fs.entry? ⟨here.names ++ names⟩ = some (.folder children)) :
    fs.follow links here (names.map .name ++ steps) =
      fs.follow links ⟨here.names ++ names⟩ steps := by
  obtain ⟨jump, hjump⟩ := fs.exists_jump links
  rw [hjump, hjump]
  induction names generalizing here with
  | nil => simp
  | cons name rest ih =>
    obtain ⟨hname, hrest⟩ := List.forall_mem_cons.1 hfits
    obtain ⟨others, hhere⟩ := exists_folder_of_append (List.cons_ne_nil name rest) hfolder
    have hnames : here.names ++ name :: rest = (here.child name).names ++ rest := by
      simp [Location.child]
    rw [hnames] at hfolder ⊢
    obtain ⟨inner, hinner⟩ : ∃ inner, fs.entry? (here.child name) = some (.folder inner) := by
      by_cases hlast : rest = []
      · exact ⟨children, by simpa [hlast] using hfolder⟩
      · exact exists_folder_of_append hlast hfolder
    rw [entry?_child hhere] at hinner
    rw [← ih hrest hfolder, List.map_cons, List.cons_append]
    simp only [walk, hhere, if_neg (Nat.not_lt.2 hname), hinner]

theorem walk_workingFolder (fs : FileSystem) (folder : Location)
    (jump : Location → List Step → Except FileFault Location) (here : Location)
    (steps : List Step) :
    ({ fs with workingFolder := folder } : FileSystem).walk jump here steps =
      fs.walk jump here steps := by
  induction steps generalizing here with
  | nil => rfl
  | cons step rest ih => simp only [walk, ih, entry?]

/-- Only a path that is not absolute depends on the folder that it is taken from. -/
theorem follow_workingFolder (fs : FileSystem) (folder : Location) (links : Nat) :
    ({ fs with workingFolder := folder } : FileSystem).follow links = fs.follow links := by
  induction links with
  | zero => exact funext₂ (walk_workingFolder fs folder _)
  | succ links ih =>
    funext here steps
    rw [follow, follow, ih, walk_workingFolder]

/-- The regular file that a path leads to from a folder. -/
def fileFrom? (fs : FileSystem) (folder : Location) (p : Path) : Option Location :=
  match ({ fs with workingFolder := folder } : FileSystem).locate p with
  | .ok place => if (fs.bytesAt place).isOk then some place else none
  | .error _ => none

theorem fileFrom?_eq_some_iff : fs.fileFrom? folder p = some place ↔
    ({ fs with workingFolder := folder } : FileSystem).locate p = .ok place ∧
      ∃ content, fs.entry? place = some (.file content) := by
  rw [← bytesAt_isOk_iff]
  unfold fileFrom?
  split
  · rename_i found hfound
    rw [hfound, Except.ok.injEq]
    by_cases hfile : (fs.bytesAt found).isOk = true
    · rw [if_pos hfile, Option.some.injEq]
      exact ⟨fun heq => ⟨heq, heq ▸ hfile⟩, And.left⟩
    · rw [if_neg hfile]
      exact ⟨nofun, fun ⟨heq, hok⟩ => absurd (heq ▸ hok) hfile⟩
  · rename_i fault hfault
    rw [hfault]
    exact ⟨nofun, fun h => absurd h.1 nofun⟩

theorem locate_from_eq_ok_iff :
    ({ fs with workingFolder := folder } : FileSystem).locate p = .ok place ↔
      '\x00' ∉ p.text.toList ∧ p.text ≠ "" ∧
        fs.follow linkLimit (if p.isAbsolute then ⟨[]⟩ else folder) p.steps = .ok place := by
  rw [locate_eq_ok_iff, follow_workingFolder]
  rfl

/-- From a folder, nothing but a name leads to a file. -/
theorem ne_empty_of_follow {content : List UInt8}
    (hfolder : fs.entry? folder = some (.folder children))
    (hfollow : fs.follow links folder p.steps = .ok place)
    (hfile : fs.entry? place = some (.file content)) : p.text ≠ "" := by
  rintro hempty
  obtain ⟨text⟩ := p
  obtain rfl : text = "" := hempty
  obtain ⟨jump, hjump⟩ := fs.exists_jump links
  rw [hjump] at hfollow
  rw [walk_stays (by decide) hfollow, hfolder] at hfile
  simp at hfile

theorem fileFrom?_join_relative (hfs : (Entry.folder fs.children).IsStored)
    (hfolder : fs.entry? folder = some (.folder children))
    (hname : Path.isAbsolute ⟨name⟩ = false) :
    fs.fileFrom? here (folder.toPath.join ⟨name⟩) = fs.fileFrom? folder ⟨name⟩ := by
  have hnames := hfs.isEntryName hfolder
  have hplain : folder.IsPlain := fun name hmem => (hnames name hmem).toIsFileName
  have htext := Location.toPath_join hplain hname
  have hzero : '\x00' ∈ (folder.toPath.join ⟨name⟩).text.toList ↔ '\x00' ∈ name.toList := by
    have hfront : '\x00' ∉ folder.names.flatMap fun name => '/' :: name.toList := by
      intro hmem
      obtain ⟨other, hother, hmem⟩ := List.mem_flatMap.1 hmem
      rcases List.mem_cons.1 hmem with hslash | hmem
      · contradiction
      · exact (hnames other hother).no_zero hmem
    rw [Location.toList_toPath_join hplain hname]
    simp [hfront]
  refine Option.ext fun place => ?_
  rw [fileFrom?_eq_some_iff, fileFrom?_eq_some_iff, locate_from_eq_ok_iff, locate_from_eq_ok_iff,
    if_pos (Location.isAbsolute_toPath_join hplain hname), if_neg (by simp [hname]), hzero,
    Location.steps_toPath_join hplain hname,
    follow_folder (fun name hmem => (hnames name hmem).fits) hfolder]
  constructor
  · rintro ⟨⟨hnot, -, hfollow⟩, content, hfile⟩
    exact ⟨⟨hnot, ne_empty_of_follow hfolder hfollow hfile, hfollow⟩, content, hfile⟩
  · rintro ⟨⟨hnot, -, hfollow⟩, hfile⟩
    refine ⟨⟨hnot, ?_, hfollow⟩, hfile⟩
    rw [htext]
    simp

/-- A path that is taken from a folder leads to the file that it leads to from the folder. -/
theorem fileFrom?_join (hfs : (Entry.folder fs.children).IsStored)
    (hfolder : fs.entry? folder = some (.folder children)) :
    fs.fileFrom? here (folder.toPath.join ⟨name⟩) = fs.fileFrom? folder ⟨name⟩ := by
  cases hname : Path.isAbsolute ⟨name⟩ with
  | false => exact fileFrom?_join_relative hfs hfolder hname
  | true =>
    refine Option.ext fun place => ?_
    rw [Path.join, if_pos hname, fileFrom?_eq_some_iff, fileFrom?_eq_some_iff,
      locate_from_eq_ok_iff, locate_from_eq_ok_iff, if_pos hname, if_pos hname]

end FileSystem

end EngineTrials
