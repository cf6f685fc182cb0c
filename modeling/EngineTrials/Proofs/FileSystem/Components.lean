import EngineTrials.Proofs.FileSystem.Tree
import EngineTrials.Run.Runner

/-! Paths below a folder. Joining the names that lead from a folder to a file adds them to the
components of its path, and a path that is made of the names alone has no other components. Paths
are ordered by their components, which is not the order of their texts: in that order a slash is a
character like any other. -/

namespace EngineTrials

open Text (pieces)

namespace IsFileName

variable {name : String}

theorem toList_ne_nil (h : IsFileName name) : name.toList ≠ [] := by
  simpa using h.ne_empty

theorem innerComponent? (h : IsFileName name) :
    Path.innerComponent? name.toList = some (.name name) := by
  have hhere : name.toList ≠ ['.'] := fun heq => h.ne_here (String.toList_inj.1 heq)
  have hup : name.toList ≠ ['.', '.'] := fun heq => h.ne_up (String.toList_inj.1 heq)
  simp [Path.innerComponent?, h.ne_empty, hhere, hup]

theorem isAbsolute (h : IsFileName name) : Path.isAbsolute ⟨name⟩ = false := by
  by_contra habsolute
  obtain ⟨rest, hrest⟩ := List.isPrefixOf_iff_prefix.1 (Bool.not_eq_false _ ▸ habsolute)
  exact h.no_slash (hrest ▸ List.mem_cons_self)

end IsFileName

namespace Path

variable {p q : Path} {name : String} {names : List String}

theorem components_of_slash {rest : List Char} (h : p.text.toList = '/' :: rest) :
    p.components = .root :: (pieces '/' rest).filterMap innerComponent? := by
  simp [components, h]

/-- The components that the pieces of a relative path stand for. -/
def relativeComponents : List (List Char) → List Component
  | ['.'] :: rest => .here :: rest.filterMap innerComponent?
  | all => all.filterMap innerComponent?

theorem components_of_not_slash (h : ∀ rest, p.text.toList ≠ '/' :: rest) :
    p.components = relativeComponents (pieces '/' p.text.toList) := by
  unfold components
  split
  · rename_i rest htext
    exact absurd htext (h rest)
  · rfl

theorem filterMap_append_singleton (all : List (List Char)) (piece : List Char) :
    (all ++ [piece]).filterMap innerComponent? =
      all.filterMap innerComponent? ++ (innerComponent? piece).toList := by
  rw [List.filterMap_append]
  cases hpiece : innerComponent? piece with
  | none => simp [hpiece]
  | some c => simp [hpiece]

theorem relativeComponents_append_singleton {all : List (List Char)} (hall : all ≠ [])
    (piece : List Char) :
    relativeComponents (all ++ [piece]) =
      relativeComponents all ++ (innerComponent? piece).toList := by
  cases all with
  | nil => exact absurd rfl hall
  | cons first rest =>
    by_cases hfirst : first = ['.']
    · subst hfirst
      simp only [List.cons_append, relativeComponents, filterMap_append_singleton]
    · have hother : ∀ others, relativeComponents (first :: others) =
          (first :: others).filterMap innerComponent? := by
        intro others
        unfold relativeComponents
        split
        · simp_all
        · rfl
      rw [hother, List.cons_append, hother, ← List.cons_append, filterMap_append_singleton]

/-- What comes after one more slash, without another one, is one component at most. -/
theorem components_append_slash {piece : List Char} (hp : p.text.toList ≠ [])
    (hpiece : '/' ∉ piece) (h : q.text.toList = p.text.toList ++ '/' :: piece) :
    q.components = p.components ++ (innerComponent? piece).toList := by
  by_cases hslash : ∃ rest, p.text.toList = '/' :: rest
  · obtain ⟨rest, hrest⟩ := hslash
    rw [hrest, List.cons_append] at h
    rw [components_of_slash h, components_of_slash hrest, Text.pieces_append_cons,
      Text.pieces_of_not_mem hpiece, filterMap_append_singleton, List.cons_append]
  · have hq : ∀ rest, q.text.toList ≠ '/' :: rest := by
      intro rest hrest
      obtain ⟨c, start, hstart⟩ := List.exists_cons_of_ne_nil hp
      rw [hrest, hstart, List.cons_append, List.cons.injEq] at h
      exact hslash ⟨start, by rw [hstart, h.1]⟩
    rw [components_of_not_slash hq, components_of_not_slash (not_exists.1 hslash), h,
      Text.pieces_append_cons, Text.pieces_of_not_mem hpiece,
      relativeComponents_append_singleton (Text.pieces_ne_nil _ _)]

theorem filterMap_names (h : ∀ name ∈ names, IsFileName name) :
    (names.map String.toList).filterMap innerComponent? = names.map .name := by
  induction names with
  | nil => rfl
  | cons name rest ih =>
    obtain ⟨hname, hrest⟩ := List.forall_mem_cons.1 h
    rw [List.map_cons, List.filterMap_cons_some hname.innerComponent?, ih hrest, List.map_cons]

theorem pieces_relativePath (hnames : ∀ name ∈ names, IsFileName name) (hne : names ≠ []) :
    pieces '/' (Runner.relativePath names).text.toList = names.map String.toList := by
  induction names with
  | nil => exact absurd rfl hne
  | cons name rest ih =>
    obtain ⟨hname, hrest⟩ := List.forall_mem_cons.1 hnames
    cases rest with
    | nil => exact Text.pieces_of_not_mem hname.no_slash
    | cons next more =>
      have htext : (Runner.relativePath (name :: next :: more)).text.toList =
          name.toList ++ '/' :: (Runner.relativePath (next :: more)).text.toList := by
        simp [Runner.relativePath, Text.join]
      rw [htext, Text.pieces_append_cons, Text.pieces_of_not_mem hname.no_slash, ih hrest (by simp)]
      rfl

theorem components_relativePath (hnames : ∀ name ∈ names, IsFileName name) :
    (Runner.relativePath names).components = names.map .name := by
  cases names with
  | nil => rfl
  | cons name rest =>
    have hname := hnames name List.mem_cons_self
    have hpieces := pieces_relativePath hnames (by simp)
    have hslash : ∀ more, (Runner.relativePath (name :: rest)).text.toList ≠ '/' :: more := by
      intro more hmore
      rw [hmore, pieces, if_pos rfl, List.map_cons, List.cons.injEq] at hpieces
      exact hname.toList_ne_nil hpieces.1.symm
    have hhere : name.toList ≠ ['.'] := fun heq => hname.ne_here (String.toList_inj.1 heq)
    rw [components_of_not_slash hslash, hpieces, ← filterMap_names hnames, List.map_cons]
    unfold relativeComponents
    split
    · simp_all
    · rfl

/-- A name after a slash at the end adds itself to the components. -/
theorem components_append_name (h : IsFileName name) {start : List Char}
    (hp : p.text.toList = start ++ ['/']) (hq : q.text.toList = p.text.toList ++ name.toList) :
    q.components = p.components ++ [.name name] := by
  rw [hp, List.append_assoc, List.singleton_append] at hq
  by_cases hstart : start = []
  · rw [hstart, List.nil_append] at hp hq
    rw [components_of_slash hp, components_of_slash hq, Text.pieces_of_not_mem h.no_slash,
      List.filterMap_cons_some h.innerComponent?]
    rfl
  · have hroot : (⟨String.ofList start⟩ : Path).text.toList ≠ [] := by simpa using hstart
    have hfolder : p.components = (⟨String.ofList start⟩ : Path).components ++ [] :=
      components_append_slash hroot (List.not_mem_nil (a := '/')) (by simpa using hp)
    have hname := components_append_slash (q := q) hroot h.no_slash (by simpa using hq)
    rw [hname, hfolder, h.innerComponent?, List.append_nil, Option.toList_some]

/-- Joining a name adds it to the components. -/
theorem components_join (h : IsFileName name) :
    (p.join ⟨name⟩).components = p.components ++ [.name name] := by
  unfold join
  rw [if_neg (by simp [h.isAbsolute])]
  split
  · rename_i hlast
    obtain ⟨text⟩ := p
    obtain rfl : text = "" := by simpa using hlast
    have hnames : ∀ other ∈ [name], IsFileName other := by simpa using h
    exact components_relativePath hnames
  · rename_i hlast
    obtain ⟨start, hstart⟩ := List.getLast?_eq_some_iff.1 hlast
    exact components_append_name h hstart (by simp)
  · rename_i c hslash hlast
    have hp : p.text.toList ≠ [] := by
      intro hnil
      simp [hnil] at hlast
    rw [components_append_slash hp h.no_slash (by simp), h.innerComponent?, Option.toList_some]

theorem components_foldl_join (h : ∀ name ∈ names, IsFileName name) :
    (names.foldl (fun path name => path.join ⟨name⟩) p).components =
      p.components ++ names.map .name := by
  induction names generalizing p with
  | nil => simp
  | cons name rest ih =>
    obtain ⟨hname, hrest⟩ := List.forall_mem_cons.1 h
    rw [List.foldl_cons, ih hrest, components_join hname, List.map_cons, List.append_assoc]
    rfl

theorem fileName?_of_components {components : List Component}
    (h : p.components = components ++ [.name name]) : p.fileName? = some name := by
  rw [fileName?, h, List.getLast?_concat]

/-- The kinds of components in their order. -/
def Component.rank : Component → Nat
  | .root => 0
  | .here => 1
  | .up => 2
  | .name _ => 3

/-- Components are ordered by their kinds, and names as texts. -/
def Component.Before (a b : Component) : Prop :=
  a.rank < b.rank ∨ ∃ s t, a = .name s ∧ b = .name t ∧ s < t

/-- Paths are ordered component by component. -/
def Before (p q : Path) : Prop := List.Lex Component.Before p.components q.components

theorem Component.not_before_self (a : Component) : ¬ a.Before a := by
  rintro (hrank | ⟨s, t, rfl, hname, hlt⟩)
  · exact lt_irrefl _ hrank
  · obtain rfl : s = t := by simpa using hname
    exact lt_irrefl s hlt

theorem not_before_self (p : Path) : ¬ p.Before p := by
  unfold Before
  induction p.components with
  | nil => nofun
  | cons a rest ih =>
    intro h
    cases h with
    | rel h => exact a.not_before_self h
    | cons h => exact ih h

/-- Paths that are made of names are ordered as the names are. -/
theorem before_of_lt {more : List String} (hp : p.components = names.map .name)
    (hq : q.components = more.map .name) (h : names < more) : p.Before q := by
  rw [Before, hp, hq]
  rw [← List.lex_lt] at h
  clear hp hq
  induction h with
  | nil => exact .nil
  | rel h => exact .rel (.inr ⟨_, _, rfl, rfl, h⟩)
  | cons _ ih => exact .cons ih

theorem lex_append_left_iff {front a b : List Component} :
    List.Lex Component.Before (front ++ a) (front ++ b) ↔ List.Lex Component.Before a b := by
  refine ⟨fun h => ?_, fun h => List.Lex.append_left _ h front⟩
  induction front with
  | nil => exact h
  | cons c rest ih =>
    cases h with
    | rel h => exact absurd h c.not_before_self
    | cons h => exact ih h

/-- Paths below one folder are ordered as what comes after the path of the folder is. -/
theorem before_below_iff {folder p' q' : Path}
    (hp : p.components = folder.components ++ p'.components)
    (hq : q.components = folder.components ++ q'.components) : p.Before q ↔ p'.Before q' := by
  rw [Before, Before, hp, hq, lex_append_left_iff]

end Path

end EngineTrials
