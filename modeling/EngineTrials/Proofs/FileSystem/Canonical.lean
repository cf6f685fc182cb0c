import EngineTrials.Proofs.FileSystem.Components
import EngineTrials.Proofs.FileSystem.Spelling

/-! The paths of places. What a path leads to is a place of plain names, if the folder that relative
paths start from is one, and the path that is written for such a place has its names as components.
So no two places are written the same way. -/

namespace EngineTrials

open Text (pieces)

/-- A place whose names are names of files. -/
def Location.IsPlain (l : Location) : Prop := ∀ name ∈ l.names, IsFileName name

theorem Location.isPlain_root : (⟨[]⟩ : Location).IsPlain := List.forall_mem_nil _

namespace FileSystem

variable {fs : FileSystem} {jump : Location → List Step → Except FileFault Location}
  {here place : Location} {steps : List Step} {name : String} {p : Path} {links : Nat}

theorem isFileName_of_mem_steps (h : .name name ∈ p.steps) : IsFileName name := by
  obtain ⟨piece, hpiece, hname⟩ := List.mem_map.1 h
  have hslash := Text.not_mem_of_mem_pieces hpiece
  unfold Step.ofPiece at hname
  split_ifs at hname with hinert hup
  obtain rfl := Step.name.inj hname
  obtain ⟨hempty, hhere⟩ := not_or.1 hinert
  refine ⟨?_, by simpa using hslash, ?_, ?_⟩
  · simpa using hempty
  · exact fun heq => hhere (by simpa using congrArg String.toList heq)
  · exact fun heq => hup (by simpa using congrArg String.toList heq)

/-- Steps with names of files lead from a plain place to a plain place. -/
theorem isPlain_of_walk
    (hjump : ∀ {here steps}, here.IsPlain → (∀ name, .name name ∈ steps → IsFileName name) →
      jump here steps = .ok place → place.IsPlain)
    (hhere : here.IsPlain) (hsteps : ∀ name, .name name ∈ steps → IsFileName name)
    (h : fs.walk jump here steps = .ok place) : place.IsPlain := by
  induction steps generalizing here with
  | nil =>
    obtain rfl : here = place := Except.ok.inj h
    exact hhere
  | cons step rest ih =>
    have hrest : ∀ name, .name name ∈ rest → IsFileName name :=
      fun name hname => hsteps name (List.mem_cons_of_mem _ hname)
    cases walk_cons_iff.1 h with
    | stay _ hwalk => exact ih hhere hrest hwalk
    | up _ hwalk =>
      exact ih (fun name hname => hhere name (List.dropLast_subset _ hname)) hrest hwalk
    | entry _ _ _ _ hwalk =>
      refine ih (List.forall_mem_append.2 ⟨hhere, ?_⟩) hrest hwalk
      exact List.forall_mem_singleton.2 (hsteps _ List.mem_cons_self)
    | link _ _ _ hfollow =>
      refine hjump ?_ (fun name hname => ?_) hfollow
      · split
        · exact Location.isPlain_root
        · exact hhere
      · exact (List.mem_append.1 hname).elim isFileName_of_mem_steps (hrest name)

theorem isPlain_of_follow (hhere : here.IsPlain)
    (hsteps : ∀ name, .name name ∈ steps → IsFileName name)
    (h : fs.follow links here steps = .ok place) : place.IsPlain := by
  induction links generalizing here steps with
  | zero => exact isPlain_of_walk (by simp) hhere hsteps h
  | succ links ih => exact isPlain_of_walk ih hhere hsteps h

theorem isPlain_of_locate (hworking : fs.workingFolder.IsPlain) (h : fs.locate p = .ok place) :
    place.IsPlain := by
  unfold locate at h
  split_ifs at h
  · exact isPlain_of_follow Location.isPlain_root (fun _ => isFileName_of_mem_steps) h
  · exact isPlain_of_follow hworking (fun _ => isFileName_of_mem_steps) h

end FileSystem

namespace Location

variable {l m : Location}

theorem toList_foldl_slash (text : String) (names : List String) :
    (names.foldl (fun text name => text ++ "/" ++ name) text).toList =
      text.toList ++ names.flatMap fun name => '/' :: name.toList := by
  induction names generalizing text with
  | nil => simp
  | cons name rest ih => simp [ih]

theorem toList_relativePath (name : String) (rest : List String) :
    (Runner.relativePath (name :: rest)).text.toList =
      name.toList ++ rest.flatMap fun name => '/' :: name.toList := by
  induction rest generalizing name with
  | nil => simp [Runner.relativePath, Text.join]
  | cons next more ih =>
    have hnext := ih next
    simp only [Runner.relativePath] at hnext ⊢
    simp [Text.join, hnext]

/-- The path of a plain place has its names as components. -/
theorem IsPlain.components_toPath (h : l.IsPlain) :
    l.toPath.components = .root :: l.names.map .name := by
  obtain ⟨names⟩ := l
  cases names with
  | nil => rfl
  | cons name rest =>
    have htext : (toPath ⟨name :: rest⟩).text.toList =
        '/' :: (Runner.relativePath (name :: rest)).text.toList := by
      rw [toPath, toList_foldl_slash, toList_relativePath]
      simp
    rw [Path.components_of_slash htext, Path.pieces_relativePath h (by simp),
      Path.filterMap_names h]

/-- Different plain places have different paths. -/
theorem IsPlain.eq_of_toPath_eq (hl : l.IsPlain) (hm : m.IsPlain) (h : l.toPath = m.toPath) :
    l = m := by
  have hcomponents := congrArg Path.components h
  rw [hl.components_toPath, hm.components_toPath, List.cons.injEq] at hcomponents
  have hnames := List.map_injective_iff.2 (fun _ _ => Path.Component.name.inj) hcomponents.2
  obtain ⟨names⟩ := l
  obtain ⟨others⟩ := m
  exact congrArg Location.mk hnames

end Location

end EngineTrials
