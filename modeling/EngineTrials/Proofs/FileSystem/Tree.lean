import EngineTrials.FileSystem.Edit
import Mathlib.Data.String.Basic

/-! Trees of files and folders. No folder of a tree holds two entries of one name, so a walk finds
each regular file of a tree once, by the names that lead to it. Folder by folder, and by name in each
folder, these are in their order as lists of names. -/

namespace EngineTrials

/-- A name that a folder can hold: a text without a slash, and none of the dots by which a folder
names itself and the folder above. -/
structure IsFileName (name : String) : Prop where
  ne_empty : name ≠ ""
  no_slash : '/' ∉ name.toList
  ne_here : name ≠ "."
  ne_up : name ≠ ".."

instance (name : String) : Decidable (IsFileName name) :=
  decidable_of_iff (name ≠ "" ∧ '/' ∉ name.toList ∧ name ≠ "." ∧ name ≠ "..")
    ⟨fun ⟨hempty, hslash, hhere, hup⟩ => ⟨hempty, hslash, hhere, hup⟩,
      fun h => ⟨h.ne_empty, h.no_slash, h.ne_here, h.ne_up⟩⟩

/-- An entry in which every folder holds entries of different names. -/
inductive Entry.IsTree : Entry → Prop
  | file (content : List UInt8) : IsTree (.file content)
  | link (target : String) : IsTree (.link target)
  | folder {children : List (String × Entry)} : (children.map Prod.fst).Nodup →
      (∀ c ∈ children, IsFileName c.1) → (∀ c ∈ children, IsTree c.2) → IsTree (.folder children)

theorem lookup_of_mem {α : Type} {c : String × α} {children : List (String × α)}
    (hdistinct : (children.map Prod.fst).Nodup) (h : c ∈ children) :
    children.lookup c.1 = some c.2 := by
  induction children with
  | nil => simp at h
  | cons d rest ih =>
    rw [List.map_cons, List.nodup_cons] at hdistinct
    rcases List.mem_cons.1 h with rfl | hrest
    · exact List.lookup_cons_self
    · have hne : (c.1 == d.1) = false := by
        rw [beq_eq_false_iff_ne]
        intro heq
        exact hdistinct.1 (heq ▸ List.mem_map_of_mem hrest)
      rw [List.lookup_cons, hne]
      exact ih hdistinct.2 hrest

theorem pairwise_sortByName {α : Type} {children : List (String × α)}
    (hdistinct : (children.map Prod.fst).Nodup) :
    (sortByName children).Pairwise fun a b => a.1 < b.1 := by
  have hsorted : (sortByName children).Pairwise fun a b => decide (a.1 ≤ b.1) = true := by
    refine List.pairwise_mergeSort (fun a b c hab hbc => ?_) (fun a b => ?_) children
    · exact decide_eq_true (le_trans (of_decide_eq_true hab) (of_decide_eq_true hbc))
    · simpa using le_total a.1 b.1
  have hdifferent : (sortByName children).Pairwise fun a b => a.1 ≠ b.1 := by
    rw [← List.pairwise_map (R := (· ≠ ·)), ← List.nodup_iff_pairwise_ne]
    exact ((List.mergeSort_perm children _).map Prod.fst).nodup_iff.2 hdistinct
  refine (hsorted.and hdifferent).imp ?_
  rintro a b ⟨hle, hne⟩
  exact lt_of_le_of_ne (of_decide_eq_true hle) hne

theorem mem_setChild {name : String} {e : Entry} {c : String × Entry}
    {children : List (String × Entry)} (h : c ∈ setChild name e children) :
    c = (name, e) ∨ c ∈ children := by
  induction children with
  | nil => exact .inl (List.mem_singleton.1 h)
  | cons d rest ih =>
    unfold setChild at h
    split at h
    · exact (List.mem_cons.1 h).imp_right (List.mem_cons_of_mem _)
    · rcases List.mem_cons.1 h with rfl | hrest
      · exact .inr List.mem_cons_self
      · exact (ih hrest).imp_right (List.mem_cons_of_mem _)

theorem nodup_setChild {name : String} {e : Entry} {children : List (String × Entry)}
    (h : (children.map Prod.fst).Nodup) : ((setChild name e children).map Prod.fst).Nodup := by
  induction children with
  | nil => exact List.pairwise_singleton ..
  | cons d rest ih =>
    obtain ⟨hnew, hrest⟩ := List.nodup_cons.1 h
    unfold setChild
    split
    · rename_i heq
      exact List.nodup_cons.2 ⟨heq ▸ hnew, hrest⟩
    · rename_i hne
      refine List.nodup_cons.2 ⟨fun hmem => ?_, ih hrest⟩
      obtain ⟨c, hc, hname⟩ := List.mem_map.1 hmem
      rcases mem_setChild hc with rfl | hold
      · exact hne hname.symm
      · exact hnew (hname ▸ List.mem_map_of_mem hold)

namespace Entry

variable {e : Entry} {names : List String}

theorem mem_filesBelow_folder {children : List (String × Entry)} :
    names ∈ (folder children).filesBelow ↔
      ∃ c ∈ children, ∃ rest ∈ c.2.filesBelow, c.1 :: rest = names := by
  simp only [filesBelow_folder, List.mem_flatMap, mem_sortByName, List.mem_map]

namespace IsTree

/-- A walk of a tree finds its regular files. -/
theorem mem_filesBelow_iff (h : e.IsTree) :
    names ∈ e.filesBelow ↔ ∃ content, Entry.at? names e = some (.file content) := by
  refine ⟨fun hnames => ?_, fun ⟨content, hat⟩ => mem_filesBelow_of_at? hat⟩
  induction h generalizing names with
  | file content =>
    obtain rfl : names = [] := by simpa using hnames
    exact ⟨content, rfl⟩
  | link target => simp at hnames
  | folder hdistinct _ _ ih =>
    obtain ⟨c, hc, rest, hrest, rfl⟩ := mem_filesBelow_folder.1 hnames
    obtain ⟨content, hat⟩ := ih c hc hrest
    exact ⟨content, by rw [at?, child?, lookup_of_mem hdistinct hc, Option.bind_some, hat]⟩

theorem isFileName (h : e.IsTree) (hnames : names ∈ e.filesBelow) :
    ∀ name ∈ names, IsFileName name := by
  induction h generalizing names with
  | file content => simp_all
  | link target => simp at hnames
  | folder _ hname _ ih =>
    obtain ⟨c, hc, rest, hrest, rfl⟩ := mem_filesBelow_folder.1 hnames
    exact List.forall_mem_cons.2 ⟨hname c hc, ih c hc hrest⟩

/-- The files that a walk of a tree finds increase strictly. -/
theorem pairwise_filesBelow (h : e.IsTree) : e.filesBelow.Pairwise (· < ·) := by
  induction h with
  | file content => simp
  | link target => simp
  | @folder children hdistinct _ _ ih =>
    rw [filesBelow_folder, List.pairwise_flatMap]
    constructor
    · intro c hc
      rw [mem_sortByName] at hc
      refine List.pairwise_map.2 ((ih c hc).imp fun hlt => ?_)
      exact List.cons_lt_cons_iff.2 (.inr ⟨rfl, hlt⟩)
    · -- what is below a name comes before what is below a later name, whatever it is
      refine (pairwise_sortByName hdistinct).imp fun hlt => ?_
      intro a ha b hb
      obtain ⟨_, -, rfl⟩ := List.mem_map.1 ha
      obtain ⟨_, -, rfl⟩ := List.mem_map.1 hb
      exact List.cons_lt_cons_iff.2 (.inl hlt)

theorem child? {name : String} {inner : Entry} (h : e.IsTree)
    (hinner : e.child? name = some inner) : inner.IsTree := by
  cases h with
  | file content => simp [Entry.child?] at hinner
  | link target => simp [Entry.child?] at hinner
  | folder _ _ htrees => exact htrees _ (lookup_mem hinner)

theorem folder_setChild {name : String} {inner : Entry} {children : List (String × Entry)}
    (h : (Entry.folder children).IsTree) (hname : IsFileName name) (hinner : inner.IsTree) :
    (Entry.folder (setChild name inner children)).IsTree := by
  cases h with | folder hdistinct hnames htrees =>
  refine .folder (nodup_setChild hdistinct) (fun c hc => ?_) (fun c hc => ?_)
  · rcases mem_setChild hc with rfl | hold
    · exact hname
    · exact hnames c hold
  · rcases mem_setChild hc with rfl | hold
    · exact hinner
    · exact htrees c hold

theorem folder_children (h : e.IsTree) : (Entry.folder e.children).IsTree := by
  cases h with
  | file content => exact .folder .nil nofun nofun
  | link target => exact .folder .nil nofun nofun
  | folder hdistinct hnames htrees => exact .folder hdistinct hnames htrees

/-- A tree that is put where names lead makes a tree. -/
theorem put {old : Entry} (h : e.IsTree) (hold : old.IsTree)
    (hnames : ∀ name ∈ names, IsFileName name) : (Entry.put e names old).IsTree := by
  induction names generalizing old with
  | nil =>
    unfold Entry.put
    split
    · exact hold
    · exact h
  | cons name rest ih =>
    obtain ⟨hname, hrest⟩ := List.forall_mem_cons.1 hnames
    have hempty : (Entry.folder []).IsTree := .folder .nil nofun nofun
    have hinner : ((old.child? name).getD (.folder [])).IsTree := by
      cases hchild : old.child? name with
      | none => exact hempty
      | some inner => exact hold.child? hchild
    exact hold.folder_children.folder_setChild hname (ih hinner hrest)

end IsTree

end Entry

end EngineTrials
