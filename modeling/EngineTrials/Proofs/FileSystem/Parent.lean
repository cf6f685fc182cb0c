import EngineTrials.Proofs.FileSystem.Following

/-! The folder above a path. A path that leads to a file leads to it by way of the folder in which
its last component is looked up. What is written before this component leads to that folder, except
where nothing is written before it: an empty path leads nowhere. -/

namespace EngineTrials

open Text (pieces)

namespace Text

variable {separator : Char}

theorem intercalate_pieces (text : List Char) :
    List.intercalate [separator] (pieces separator text) = text := by
  induction text with
  | nil => rfl
  | cons c rest ih =>
    rw [pieces]
    split
    case isTrue hc =>
      obtain ⟨first, others, hpieces⟩ := List.exists_cons_of_ne_nil (pieces_ne_nil separator rest)
      rw [hpieces] at ih ⊢
      rw [List.intercalate_cons_cons, ih, hc]
      rfl
    case isFalse =>
      obtain ⟨first, others, hpieces⟩ := List.exists_cons_of_ne_nil (pieces_ne_nil separator rest)
      rw [hpieces] at ih ⊢
      rw [← ih]
      cases others with
      | nil => simp
      | cons next more => simp [List.intercalate_cons_cons]

theorem intercalate_isPrefix (before after : List (List Char)) :
    List.intercalate [separator] before <+: List.intercalate [separator] (before ++ after) := by
  induction before with
  | nil => exact List.nil_prefix
  | cons piece rest ih =>
    cases rest with
    | nil =>
      cases after with
      | nil => exact List.prefix_refl _
      | cons next more =>
        rw [List.singleton_append, List.intercalate_cons_cons, List.intercalate_singleton]
        exact (List.prefix_append ..).trans (List.prefix_append ..)
    | cons next more =>
      rw [List.cons_append, List.cons_append, List.intercalate_cons_cons,
        List.intercalate_cons_cons]
      exact (List.prefix_append_right_inj _).2 ih

end Text

namespace Path

variable {p own : Path}

/-- The text of a path after the slash that makes it absolute. -/
def body (p : Path) : List Char := if p.isAbsolute then p.text.toList.drop 1 else p.text.toList

theorem steps_eq (p : Path) : p.steps = (pieces '/' p.body).map Step.ofPiece := rfl

theorem steps_ne_nil (p : Path) : p.steps ≠ [] := by
  rw [p.steps_eq]
  simpa using Text.pieces_ne_nil '/' p.body

theorem exists_dropInert (absolute : Bool) (reversed : List (List Char)) :
    ∃ inert, reversed = inert ++ dropInert absolute reversed ∧
      ∀ piece ∈ inert, Step.ofPiece piece = .stay := by
  induction reversed with
  | nil => exact ⟨[], rfl, nofun⟩
  | cons piece rest ih =>
    rw [dropInert]
    split
    case isTrue hinert =>
      obtain ⟨inert, hrest, hstay⟩ := ih
      refine ⟨piece :: inert, by rw [List.cons_append, ← hrest], ?_⟩
      refine List.forall_mem_cons.2 ⟨if_pos (hinert.imp_right And.left), hstay⟩
    case isFalse => exact ⟨[], rfl, nofun⟩

theorem parent?_eq (p : Path) :
    p.parent? = match dropInert p.isAbsolute (pieces '/' p.body).reverse with
      | [] => none
      | _ :: rest =>
        let kept := List.intercalate ['/'] (dropInert p.isAbsolute rest).reverse
        some ⟨String.ofList (if p.isAbsolute then '/' :: kept else kept)⟩ := rfl

/-- A path of which something is left is made of the pieces that are kept for the folder above it,
of inert ones, and of a last one with only inert ones after it. -/
structure Splits (p own : Path) (kept inert : List (List Char)) (last : List Char)
    (more : List (List Char)) : Prop where
  pieces : pieces '/' p.body = kept ++ (inert ++ last :: more)
  inert : ∀ piece ∈ inert, Step.ofPiece piece = .stay
  more : ∀ piece ∈ more, Step.ofPiece piece = .stay
  own : own.text.toList = (if p.isAbsolute then ['/'] else []) ++ List.intercalate ['/'] kept

theorem parent?_spec (p : Path) : (∀ step ∈ p.steps, step = .stay) ∨
    ∃ own kept inert last more, p.parent? = some own ∧ p.Splits own kept inert last more := by
  obtain ⟨more, hmore, hmoreStay⟩ := exists_dropInert p.isAbsolute (pieces '/' p.body).reverse
  rw [parent?_eq]
  cases hlast : dropInert p.isAbsolute (pieces '/' p.body).reverse with
  | nil =>
    rw [hlast, List.append_nil] at hmore
    refine .inl fun step hstep => ?_
    obtain ⟨piece, hpiece, rfl⟩ := List.mem_map.1 hstep
    exact hmoreStay piece (hmore ▸ List.mem_reverse.2 hpiece)
  | cons last rest =>
    obtain ⟨inert, hinert, hinertStay⟩ := exists_dropInert p.isAbsolute rest
    refine .inr ⟨_, (dropInert p.isAbsolute rest).reverse, inert.reverse, last, more.reverse, rfl,
      ?_, by simpa using hinertStay, by simpa using hmoreStay, ?_⟩
    · rw [← List.reverse_inj, hmore, hlast]
      conv_lhs => rw [hinert]
      simp
    · cases p.isAbsolute <;> simp

section

variable {kept inert more : List (List Char)} {last : List Char}
  (h : p.Splits own kept inert last more)

include h

theorem Splits.steps_eq : p.steps = kept.map Step.ofPiece ++
    (inert.map Step.ofPiece ++ Step.ofPiece last :: more.map Step.ofPiece) := by
  rw [p.steps_eq, h.pieces, List.map_append, List.map_append, List.map_cons]

theorem Splits.own_text : own.text.toList <+: p.text.toList := by
  have hbody : List.intercalate ['/'] kept <+: p.body := by
    rw [← @Text.intercalate_pieces '/' p.body, h.pieces]
    exact Text.intercalate_isPrefix ..
  rw [h.own]
  by_cases habsolute : p.isAbsolute = true
  · obtain ⟨rest, hrest⟩ := List.isPrefixOf_iff_prefix.1 habsolute
    rw [body, if_pos habsolute, ← hrest] at hbody
    rw [if_pos habsolute, ← hrest]
    exact (List.prefix_append_right_inj _).2 hbody
  · rw [body, if_neg habsolute] at hbody
    rw [if_neg habsolute]
    exact hbody

theorem Splits.isAbsolute_eq : own.isAbsolute = p.isAbsolute := by
  obtain ⟨rest, hrest⟩ := h.own_text
  by_cases habsolute : p.isAbsolute = true
  · rw [habsolute, isAbsolute, h.own, if_pos habsolute]
    rfl
  · cases htext : own.text.toList with
    | nil =>
      rw [Bool.not_eq_true] at habsolute
      rw [habsolute, isAbsolute, htext]
      rfl
    | cons c text =>
      rw [htext] at hrest
      rw [isAbsolute, isAbsolute, ← hrest, htext]
      rfl

theorem Splits.own_steps_eq (hkept : kept ≠ []) : own.steps = kept.map Step.ofPiece := by
  have hbody : own.body = List.intercalate ['/'] kept := by
    rw [body, h.isAbsolute_eq, h.own]
    cases p.isAbsolute <;> simp
  have hslash : ∀ piece ∈ kept, '/' ∉ piece := by
    intro piece hpiece
    have hmem : piece ∈ Text.pieces '/' p.body := by
      rw [h.pieces]
      exact List.mem_append_left _ hpiece
    exact Text.not_mem_of_mem_pieces hmem
  rw [own.steps_eq, hbody, Text.pieces_intercalate hkept hslash]

theorem Splits.filter_steps : p.steps.filter (· ≠ .stay) =
    (kept.map Step.ofPiece).filter (· ≠ .stay) ++ [Step.ofPiece last].filter (· ≠ .stay) := by
  have hinert : (inert.map Step.ofPiece).filter (· ≠ .stay) = [] := by simpa using h.inert
  have hmore : (more.map Step.ofPiece).filter (· ≠ .stay) = [] := by simpa using h.more
  rw [h.steps_eq, List.filter_append, List.filter_append, hinert, List.nil_append,
    ← List.singleton_append, List.filter_append, hmore, List.append_nil]

end

end Path

namespace FileSystem

variable {fs : FileSystem} {p own : Path} {here folder place : Location} {steps : List Step}
  {children : List (String × Entry)} {links : Nat}

/-- Where the steps of a path start. -/
def base (fs : FileSystem) (p : Path) : Location := if p.isAbsolute then ⟨[]⟩ else fs.workingFolder

/-- The folder in which the last component of a path is looked up, all links followed. -/
def FolderOf (fs : FileSystem) (p : Path) (folder : Location) : Prop :=
  ∃ before name, p.steps.filter (· ≠ .stay) = before ++ [.name name] ∧
    fs.follow linkLimit (fs.base p) before = .ok folder

theorem FolderOf.unique {other : Location} (h : fs.FolderOf p folder) (h' : fs.FolderOf p other) :
    folder = other := by
  obtain ⟨before, name, hsteps, hfollow⟩ := h
  obtain ⟨before', name', hsteps', hfollow'⟩ := h'
  obtain ⟨rfl, -⟩ := List.append_inj' (hsteps.symm.trans hsteps') rfl
  exact Except.ok.inj (hfollow.symm.trans hfollow')

theorem locate_eq_ok_iff : fs.locate p = .ok place ↔
    '\x00' ∉ p.text.toList ∧ p.text ≠ "" ∧
      fs.follow linkLimit (fs.base p) p.steps = .ok place := by
  unfold locate base
  simp only [String.isEmpty_iff]
  split
  case isTrue hzero => simp [hzero]
  case isFalse hzero =>
    split
    case isTrue hempty => simp [hempty]
    case isFalse hempty => simp [hzero, hempty]

theorem exists_jump (fs : FileSystem) (links : Nat) :
    ∃ jump, ∀ here steps, fs.follow links here steps = fs.walk jump here steps := by
  cases links with
  | zero => exact ⟨_, fun _ _ => rfl⟩
  | succ links => exact ⟨_, fun _ _ => rfl⟩

/-- What stands above an entry is a folder. -/
theorem exists_folder_of_append {names : List String} {e : Entry} (hne : names ≠ [])
    (h : fs.entry? ⟨here.names ++ names⟩ = some e) :
    ∃ children, fs.entry? here = some (.folder children) := by
  obtain ⟨name, rest, rfl⟩ := List.exists_cons_of_ne_nil hne
  rw [entry?_append] at h
  obtain ⟨inner, hinner, hrest⟩ := Option.bind_eq_some_iff.1 h
  cases inner with
  | file content => simp [Entry.at?, Entry.child?] at hrest
  | link target => simp [Entry.at?, Entry.child?] at hrest
  | folder children => exact ⟨children, hinner⟩

theorem exists_folder_up (h : fs.entry? here = some (.folder children)) :
    ∃ others, fs.entry? here.up = some (.folder others) := by
  by_cases hroot : here.names = []
  · have hup : here.up = here := by rw [Location.up, hroot, List.dropLast_nil, ← hroot]
    exact ⟨children, by rw [hup, h]⟩
  · have hlast : fs.entry? ⟨here.up.names ++ [here.names.getLast hroot]⟩ =
        some (.folder children) := by
      rw [Location.up, List.dropLast_concat_getLast]
      exact h
    exact exists_folder_of_append (by simp) hlast

section

variable {jump : Location → List Step → Except FileFault Location} {inert more : List Step}
  {last : Step} {content : List UInt8}

theorem walk_stays (hsteps : ∀ step ∈ steps, step = .stay)
    (h : fs.walk jump here steps = .ok place) : place = here := by
  induction steps with
  | nil => exact (Except.ok.inj h).symm
  | cons step rest ih =>
    obtain ⟨rfl, hrest⟩ := List.forall_mem_cons.1 hsteps
    cases walk_cons_iff.1 h with
    | stay _ hwalk => exact ih hrest hwalk

/-- Steps that lead to a file move on at the end by a name, from a folder. -/
theorem exists_name_of_walk (hinert : ∀ step ∈ inert, step = .stay)
    (hmore : ∀ step ∈ more, step = .stay) (hfile : fs.entry? place = some (.file content))
    (h : fs.walk jump here (inert ++ last :: more) = .ok place) :
    (∃ name, last = .name name) ∧ ∃ children, fs.entry? here = some (.folder children) := by
  induction inert with
  | nil =>
    cases walk_cons_iff.1 h with
    | stay hfolder hwalk =>
      rw [walk_stays hmore hwalk, hfolder] at hfile
      simp at hfile
    | up hfolder hwalk =>
      obtain ⟨others, hup⟩ := exists_folder_up hfolder
      rw [walk_stays hmore hwalk, hup] at hfile
      simp at hfile
    | entry hfolder _ _ _ _ => exact ⟨⟨_, rfl⟩, _, hfolder⟩
    | link hfolder _ _ _ => exact ⟨⟨_, rfl⟩, _, hfolder⟩
  | cons step rest ih =>
    obtain ⟨rfl, hrest⟩ := List.forall_mem_cons.1 hinert
    cases walk_cons_iff.1 h with
    | stay _ hwalk => exact ih hrest hwalk

end

/-- The path of the folder above leads as far as what is kept for it. -/
theorem follow_own {kept inert more : List (List Char)} {last : List Char}
    (hsplits : p.Splits own kept inert last more)
    (hfolder : fs.entry? folder = some (.folder children))
    (h : fs.follow links here (kept.map Step.ofPiece) = .ok folder) :
    fs.follow links here own.steps = .ok folder := by
  by_cases hkept : kept = []
  · obtain rfl : here = folder := by simpa [hkept, follow_nil] using h
    have hsteps : own.steps = [.stay] := by
      have htext := hsplits.own
      rw [hkept, List.intercalate_nil, List.append_nil] at htext
      rw [own.steps_eq, Path.body, hsplits.isAbsolute_eq, htext]
      cases p.isAbsolute <;> rfl
    obtain ⟨jump, hjump⟩ := fs.exists_jump links
    rw [hsteps, hjump]
    exact walk_cons_iff.2 (.stay hfolder rfl)
  · rwa [hsplits.own_steps_eq hkept]

theorem bytesAt_isOk_iff :
    (fs.bytesAt place).isOk = true ↔ ∃ content, fs.entry? place = some (.file content) := by
  unfold bytesAt
  cases fs.entry? place with
  | none => simp [Except.isOk, Except.toBool]
  | some e => cases e <;> simp [Except.isOk, Except.toBool]

theorem isFile_iff : fs.isFile p = true ↔
    ∃ place content, fs.locate p = .ok place ∧ fs.entry? place = some (.file content) := by
  unfold isFile
  cases fs.locate p with
  | error fault => simp
  | ok place => simp [bytesAt_isOk_iff]

theorem exists_folderOf (h : fs.isFile p = true) :
    ∃ own folder children, p.parent? = some own ∧ fs.FolderOf p folder ∧
      fs.entry? folder = some (.folder children) ∧
      (own.text = "" → folder = fs.workingFolder) ∧
        (own.text ≠ "" → fs.locate own = .ok folder) := by
  obtain ⟨place, content, hplace, hfile⟩ := isFile_iff.1 h
  obtain ⟨hzero, -, hfollow⟩ := locate_eq_ok_iff.1 hplace
  obtain hstays | ⟨own, kept, inert, last, more, hparent, hsplits⟩ := p.parent?_spec
  · -- steps that all stay lead to the folder that they start from
    obtain ⟨jump, hjump⟩ := fs.exists_jump linkLimit
    obtain ⟨step, rest, hsteps⟩ := List.exists_cons_of_ne_nil p.steps_ne_nil
    rw [hjump, hsteps, ← List.nil_append (step :: rest)] at hfollow
    rw [hsteps] at hstays
    obtain ⟨⟨name, hname⟩, -⟩ := exists_name_of_walk (List.forall_mem_nil _)
      (List.forall_mem_cons.1 hstays).2 hfile hfollow
    rw [hname] at hstays
    simp at hstays
  · rw [hsplits.steps_eq] at hfollow
    obtain ⟨folder, n, hfolder, hrest⟩ := exists_follow_append hfollow
    obtain ⟨jump, hjump⟩ := fs.exists_jump n
    rw [hjump] at hrest
    obtain ⟨⟨name, hname⟩, children, hchildren⟩ := exists_name_of_walk
      (by simpa using hsplits.inert) (by simpa using hsplits.more) hfile hrest
    have hfolderOf : fs.FolderOf p folder := by
      refine ⟨_, name, ?_, follow_shortens linkLimit (Step.shortens_filter _) hfolder⟩
      rw [hsplits.filter_steps, hname]
      rfl
    rw [base, ← hsplits.isAbsolute_eq, ← base] at hfolder
    have hown := follow_own hsplits hchildren hfolder
    refine ⟨own, folder, children, hparent, hfolderOf, hchildren, fun hempty => ?_, fun hne => ?_⟩
    · obtain ⟨text⟩ := own
      obtain rfl : text = "" := hempty
      obtain ⟨jump, hjump⟩ := fs.exists_jump linkLimit
      rw [hjump] at hown
      exact walk_stays (by decide) hown
    · obtain ⟨rest, hrest⟩ := hsplits.own_text
      have htext : p.text = own.text ++ String.ofList rest := String.toList_inj.1 (by simp [hrest])
      refine locate_eq_ok_iff.2 ⟨fun hmem => hzero ?_, hne, hown⟩
      rw [htext, String.toList_append]
      exact List.mem_append_left _ hmem

end FileSystem

end EngineTrials
