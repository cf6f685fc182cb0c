import EngineTrials.Proofs.FileSystem.Components
import EngineTrials.Proofs.FileSystem.Spelling

/-! Following the steps of a path part by part. What a path leads to, it leads to by way of a folder
that its first steps lead to. From a folder of a tree, names that lead to a file of that tree lead
there without a link; a single name leads to the entry of that name, unless a link has it. -/

namespace EngineTrials

namespace FileSystem

variable {fs : FileSystem} {here place : Location} {steps more : List Step} {links : Nat}
  {names : List String} {name : String} {p q : Path}

theorem exists_walk_append {jump : Location → List Step → Except FileFault Location}
    (hjump : ∀ {here steps}, jump here (steps ++ more) = .ok place →
      ∃ mid n, jump here steps = .ok mid ∧ fs.follow n mid more = .ok place)
    (hrest : ∀ {mid}, fs.walk jump mid more = .ok place → ∃ n, fs.follow n mid more = .ok place)
    (h : fs.walk jump here (steps ++ more) = .ok place) :
    ∃ mid n, fs.walk jump here steps = .ok mid ∧ fs.follow n mid more = .ok place := by
  -- a link puts its target in front of the steps left, and what is left ends with the second part
  induction steps generalizing here with
  | nil =>
    obtain ⟨n, hn⟩ := hrest h
    exact ⟨here, n, rfl, hn⟩
  | cons step rest ih =>
    rw [List.cons_append, walk_cons_iff] at h
    cases h with
    | stay hfolder h =>
      obtain ⟨mid, n, hmid, hmore⟩ := ih h
      exact ⟨mid, n, walk_cons_iff.2 (.stay hfolder hmid), hmore⟩
    | up hfolder h =>
      obtain ⟨mid, n, hmid, hmore⟩ := ih h
      exact ⟨mid, n, walk_cons_iff.2 (.up hfolder hmid), hmore⟩
    | entry hfolder hlimit hentry hlink h =>
      obtain ⟨mid, n, hmid, hmore⟩ := ih h
      exact ⟨mid, n, walk_cons_iff.2 (.entry hfolder hlimit hentry hlink hmid), hmore⟩
    | link hfolder hlimit hentry h =>
      rw [← List.append_assoc] at h
      obtain ⟨mid, n, hmid, hmore⟩ := hjump h
      exact ⟨mid, n, walk_cons_iff.2 (.link hfolder hlimit hentry hmid), hmore⟩

/-- Steps that lead to a place lead there by way of the place that the first of them lead to. -/
theorem exists_follow_append (h : fs.follow links here (steps ++ more) = .ok place) :
    ∃ mid n, fs.follow links here steps = .ok mid ∧ fs.follow n mid more = .ok place := by
  induction links generalizing here steps with
  | zero => exact exists_walk_append (by simp) (fun h => ⟨0, h⟩) h
  | succ links ih => exact exists_walk_append ih (fun h => ⟨links + 1, h⟩) h

theorem walk_name {jump : Location → List Step → Except FileFault Location}
    (h : fs.walk jump here (.name name :: steps) = .ok place) :
    ∃ e, fs.entry? (here.child name) = some e ∧
      ((∃ target, e = .link target) ∨ fs.walk jump (here.child name) steps = .ok place) := by
  cases walk_cons_iff.1 h with
  | entry _ _ hentry _ h => exact ⟨_, hentry, .inr h⟩
  | link _ _ hentry _ => exact ⟨_, hentry, .inl ⟨_, rfl⟩⟩

theorem follow_name (h : fs.follow links here (.name name :: steps) = .ok place) :
    ∃ e, fs.entry? (here.child name) = some e ∧
      ((∃ target, e = .link target) ∨ fs.follow links (here.child name) steps = .ok place) := by
  cases links with
  | zero => exact walk_name h
  | succ links => exact walk_name h

theorem follow_nil : fs.follow links here [] = .ok here := by cases links <;> rfl

/-- Names that lead to a file of a tree lead to it from the place of the tree. -/
theorem follow_names {content : List UInt8}
    (hfile : fs.entry? ⟨here.names ++ names⟩ = some (.file content))
    (h : fs.follow links here (names.map .name) = .ok place) : place = ⟨here.names ++ names⟩ := by
  induction names generalizing here with
  | nil => simpa [follow_nil] using h.symm
  | cons name rest ih =>
    have hnames : (here.child name).names ++ rest = here.names ++ name :: rest := by
      simp [Location.child]
    obtain ⟨e, hentry, ⟨target, rfl⟩ | hrest⟩ := follow_name h
    · rw [← hnames, entry?_append, hentry, Option.bind_some] at hfile
      cases rest <;> simp [Entry.at?, Entry.child?] at hfile
    · rw [← hnames] at hfile ⊢
      exact ih hfile hrest

/-- Where the components of a path lead. -/
def destination (fs : FileSystem) (p : Path) : Except FileFault Location :=
  fs.follow linkLimit (if p.isAbsolute then ⟨[]⟩ else fs.workingFolder)
    (p.components.filterMap Path.Component.step?)

theorem destination_of_locate (h : fs.locate p = .ok place) : fs.destination p = .ok place := by
  rw [destination, p.components_spec.2]
  exact follow_of_locate h

/-- A path with names after those of another one leads to its place by way of the other's. -/
theorem exists_destination (hcomponents : p.components = q.components ++ names.map .name)
    (h : fs.locate p = .ok place) : ∃ mid n, fs.destination q = .ok mid ∧
      fs.follow n mid (names.map .name) = .ok place := by
  have habsolute : p.isAbsolute = q.isAbsolute := by
    rw [Bool.eq_iff_iff, p.components_spec.1, q.components_spec.1, hcomponents]
    simp
  have hnames : (names.map Path.Component.name).filterMap Path.Component.step? =
      names.map .name := by
    simp [List.filterMap_map, Function.comp_def, Path.Component.step?]
  have hplace := destination_of_locate h
  rw [destination, habsolute, hcomponents, List.filterMap_append, hnames] at hplace
  exact exists_follow_append hplace

/-- The place of a file below a folder is made of the names that lead to it. -/
theorem eq_of_locate_below {content : List UInt8} (hfolder : fs.locate q = .ok here)
    (hfile : fs.entry? ⟨here.names ++ names⟩ = some (.file content))
    (hcomponents : p.components = q.components ++ names.map .name)
    (h : fs.locate p = .ok place) : place = ⟨here.names ++ names⟩ := by
  obtain ⟨mid, n, hmid, hplace⟩ := exists_destination hcomponents h
  obtain rfl : here = mid := Except.ok.inj ((destination_of_locate hfolder).symm.trans hmid)
  exact follow_names hfile hplace

/-- Two paths lead to one place. -/
def Meet (fs : FileSystem) (p q : Path) : Prop :=
  ∃ place, fs.locate p = .ok place ∧ fs.locate q = .ok place

theorem Meet.isFile_eq (h : fs.Meet p q) : fs.isFile p = fs.isFile q := by
  obtain ⟨place, hp, hq⟩ := h
  simp only [isFile, hp, hq]

/-- The folder at a path holds a link of that name. -/
def HoldsLink (fs : FileSystem) (folder : Path) (name : String) : Prop :=
  ∃ here target, fs.destination folder = .ok here ∧
    fs.entry? (here.child name) = some (.link target)

/-- A name that is no link's leads from a folder to the entry of that name. -/
theorem locate_join (hname : IsFileName name) (hlink : ¬ fs.HoldsLink q name)
    (h : fs.locate (q.join ⟨name⟩) = .ok place) : ∃ here : Location, place = here.child name := by
  have hcomponents : (q.join ⟨name⟩).components = q.components ++ [name].map .name :=
    Path.components_join hname
  obtain ⟨here, n, hhere, hplace⟩ := exists_destination hcomponents h
  obtain ⟨e, hentry, ⟨target, rfl⟩ | hrest⟩ := follow_name hplace
  · exact absurd ⟨here, target, hhere, hentry⟩ hlink
  · exact ⟨here, by simpa [follow_nil] using hrest.symm⟩

end FileSystem

end EngineTrials
