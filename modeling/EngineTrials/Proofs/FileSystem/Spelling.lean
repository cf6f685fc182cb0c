import EngineTrials.FileSystem.Basic
import Mathlib.Data.List.Basic

/-! Walking along the steps of a path, and spellings of a path. `walk_cons_iff` says all that a step
does; what a walk keeps is proved from it, case by case. Empty pieces and inner dots lead nowhere:
what a path leads to, it leads to without them as well, links included. Two paths with the same
components therefore lead to one place, though one of them may lead nowhere, as a file's name with a
slash after it does. -/

namespace EngineTrials

open Text (pieces)

/-- The second list of steps is the first one without some of those that stay. -/
inductive Step.Shortens : List Step → List Step → Prop
  | nil : Shortens [] []
  | keep {a b : List Step} (step : Step) : Shortens a b → Shortens (step :: a) (step :: b)
  | drop {a b : List Step} : Shortens a b → Shortens (.stay :: a) b

theorem Step.Shortens.append_left {a b : List Step} (h : Shortens a b) (before : List Step) :
    Shortens (before ++ a) (before ++ b) := by
  induction before with
  | nil => exact h
  | cons step rest ih => exact .keep step ih

theorem Step.Shortens.refl (steps : List Step) : Shortens steps steps := by
  have h := append_left .nil steps
  rwa [List.append_nil] at h

theorem Step.shortens_filter (steps : List Step) :
    Shortens steps (steps.filter (· ≠ .stay)) := by
  induction steps with
  | nil => exact .nil
  | cons step rest ih =>
    by_cases hstay : step = .stay
    · rw [List.filter_cons, if_neg (by simpa using hstay), hstay]
      exact .drop ih
    · rw [List.filter_cons, if_pos (by simpa using hstay)]
      exact .keep step ih

theorem Entry.at?_append {before after : List String} {e : Entry} :
    Entry.at? (before ++ after) e = (Entry.at? before e).bind (Entry.at? after) := by
  induction before generalizing e with
  | nil => rfl
  | cons name rest ih =>
    rw [List.cons_append, at?, at?]
    cases e.child? name with
    | none => rfl
    | some inner => exact ih

namespace FileSystem

variable {fs : FileSystem} {jump jump' : Location → List Step → Except FileFault Location}
  {here place : Location} {steps shorter : List Step} {step : Step}

theorem entry?_append {after : List String} :
    fs.entry? ⟨here.names ++ after⟩ = (fs.entry? here).bind (Entry.at? after) :=
  Entry.at?_append

theorem entry?_child {children : List (String × Entry)} {name : String}
    (h : fs.entry? here = some (.folder children)) :
    fs.entry? (here.child name) = children.lookup name := by
  rw [Location.child, entry?_append, h, Option.bind_some, Entry.at?, Entry.child?]
  exact Option.bind_fun_some _

/-- What the first step of a walk does: it goes on in the same folder, in the one above or in what
the name stands for, or a link of that name puts its own steps in front of the others. -/
inductive Goes (fs : FileSystem) (jump : Location → List Step → Except FileFault Location)
    (here place : Location) (rest : List Step) : Step → Prop
  | stay {children : List (String × Entry)} : fs.entry? here = some (.folder children) →
      fs.walk jump here rest = .ok place → Goes fs jump here place rest .stay
  | up {children : List (String × Entry)} : fs.entry? here = some (.folder children) →
      fs.walk jump here.up rest = .ok place → Goes fs jump here place rest .up
  | entry {children : List (String × Entry)} {name : String} {e : Entry} :
      fs.entry? here = some (.folder children) → ¬ nameLimit < name.utf8ByteSize →
      fs.entry? (here.child name) = some e → (∀ target, e ≠ .link target) →
      fs.walk jump (here.child name) rest = .ok place → Goes fs jump here place rest (.name name)
  | link {children : List (String × Entry)} {name target : String} :
      fs.entry? here = some (.folder children) → ¬ nameLimit < name.utf8ByteSize →
      fs.entry? (here.child name) = some (.link target) →
      jump (if (⟨target⟩ : Path).isAbsolute then ⟨[]⟩ else here) ((⟨target⟩ : Path).steps ++ rest) =
        .ok place → Goes fs jump here place rest (.name name)

theorem walk_cons_iff :
    fs.walk jump here (step :: steps) = .ok place ↔ Goes fs jump here place steps step := by
  constructor
  · intro h
    unfold walk at h
    split at h
    · rename_i children hfolder
      cases step with
      | stay => exact .stay hfolder h
      | up => exact .up hfolder h
      | name name =>
        dsimp only at h
        split_ifs at h with hlimit
        rw [← entry?_child hfolder] at h
        split at h
        · simp at h
        · rename_i target hentry
          exact .link hfolder hlimit hentry h
        · rename_i e hlink hentry
          exact .entry hfolder hlimit hentry hlink h
    · simp at h
  · intro h
    cases h with
    | stay hfolder h => simpa only [walk, hfolder] using h
    | up hfolder h => simpa only [walk, hfolder] using h
    | entry hfolder hlimit hentry hlink h =>
      rw [entry?_child hfolder] at hentry
      simpa only [walk, hfolder, if_neg hlimit, hentry] using h
    | link hfolder hlimit hentry h =>
      rw [entry?_child hfolder] at hentry
      simpa only [walk, hfolder, if_neg hlimit, hentry] using h

theorem walk_shortens
    (hjump : ∀ {here place steps shorter}, Step.Shortens steps shorter →
      jump here steps = .ok place → jump' here shorter = .ok place)
    (hsteps : Step.Shortens steps shorter) (h : fs.walk jump here steps = .ok place) :
    fs.walk jump' here shorter = .ok place := by
  -- a link puts its target in front of the steps left, so what is left out stays behind it
  induction hsteps generalizing here with
  | nil => exact h
  | keep step hrest ih =>
    rw [walk_cons_iff] at h ⊢
    cases h with
    | stay hfolder h => exact .stay hfolder (ih h)
    | up hfolder h => exact .up hfolder (ih h)
    | entry hfolder hlimit hentry hlink h => exact .entry hfolder hlimit hentry hlink (ih h)
    | link hfolder hlimit hentry h =>
      exact .link hfolder hlimit hentry (hjump (hrest.append_left _) h)
  | drop hrest ih =>
    cases walk_cons_iff.1 h with
    | stay _ h => exact ih h

theorem follow_shortens (links : Nat) (hsteps : Step.Shortens steps shorter)
    (h : fs.follow links here steps = .ok place) : fs.follow links here shorter = .ok place := by
  induction links generalizing here place steps shorter with
  | zero => exact walk_shortens (by simp) hsteps h
  | succ links ih => exact walk_shortens (fun hsteps h => ih hsteps h) hsteps h

end FileSystem

namespace Path

theorem same_iff {p q : Path} : p.same q = true ↔ p.components = q.components := by simp [same]

/-- The step that a component stands for; the root and the dot at the start are none. -/
def Component.step? : Component → Option Step
  | .up => some .up
  | .name text => some (.name text)
  | _ => none

theorem filterMap_innerComponent? (all : List (List Char)) :
    (all.filterMap innerComponent?).filterMap Component.step? =
      (all.map Step.ofPiece).filter (· ≠ .stay) := by
  induction all with
  | nil => rfl
  | cons piece rest ih =>
    rw [List.map_cons]
    by_cases hinert : piece = [] ∨ piece = ['.']
    · have hnone : innerComponent? piece = none := by simp [innerComponent?, hinert]
      have hstay : Step.ofPiece piece = .stay := by simp [Step.ofPiece, hinert]
      rw [List.filterMap_cons_none hnone, hstay, ih]
      rfl
    · by_cases hup : piece = ['.', '.']
      · subst hup
        exact congrArg (Step.up :: ·) ih
      · have hname : innerComponent? piece = some (.name (String.ofList piece)) := by
          simp [innerComponent?, hinert, hup]
        have hstep : Step.ofPiece piece = .name (String.ofList piece) := by
          simp [Step.ofPiece, hinert, hup]
        rw [List.filterMap_cons_some hname, hstep]
        exact congrArg (Step.name (String.ofList piece) :: ·) ih

theorem root_not_mem_filterMap (all : List (List Char)) :
    Component.root ∉ all.filterMap innerComponent? := by
  intro hmem
  obtain ⟨piece, -, hpiece⟩ := List.mem_filterMap.1 hmem
  unfold innerComponent? at hpiece
  split_ifs at hpiece <;> simp at hpiece

/-- What the components of a path say: whether it starts at the root, and its steps. -/
theorem components_spec (p : Path) :
    (p.isAbsolute = true ↔ Component.root ∈ p.components) ∧
      p.components.filterMap Component.step? = p.steps.filter (· ≠ .stay) := by
  unfold components steps
  split
  · rename_i rest htext
    have habsolute : p.isAbsolute = true := by simp [isAbsolute, htext]
    rw [if_pos habsolute, htext, List.drop_one, List.tail_cons, ← filterMap_innerComponent?]
    exact ⟨iff_of_true habsolute List.mem_cons_self, rfl⟩
  · rename_i hslash
    have hrelative : ¬ p.isAbsolute = true := by
      intro habsolute
      obtain ⟨rest, htext⟩ := List.isPrefixOf_iff_prefix.1 habsolute
      exact hslash rest htext.symm
    rw [if_neg hrelative, ← filterMap_innerComponent?]
    split
    · rename_i rest hpieces
      rw [hpieces]
      exact ⟨iff_of_false hrelative (by simpa using root_not_mem_filterMap rest), rfl⟩
    · exact ⟨iff_of_false hrelative (root_not_mem_filterMap _), rfl⟩

end Path

namespace FileSystem

variable {fs : FileSystem} {p q : Path} {a b : Location}

theorem follow_of_locate (h : fs.locate p = .ok a) :
    fs.follow linkLimit (if p.isAbsolute then ⟨[]⟩ else fs.workingFolder)
      (p.steps.filter (· ≠ .stay)) = .ok a := by
  unfold locate at h
  split at h
  · simp at h
  split at h
  · simp at h
  exact follow_shortens linkLimit (Step.shortens_filter p.steps) h

/-- Two paths with the same components lead to one place, if both lead to any. -/
theorem locate_eq_of_same (hsame : p.same q = true) (hp : fs.locate p = .ok a)
    (hq : fs.locate q = .ok b) : a = b := by
  have hcomponents := Path.same_iff.1 hsame
  have habsolute : p.isAbsolute = q.isAbsolute := by
    rw [Bool.eq_iff_iff, p.components_spec.1, q.components_spec.1, hcomponents]
  have hsteps : p.steps.filter (· ≠ .stay) = q.steps.filter (· ≠ .stay) := by
    rw [← p.components_spec.2, ← q.components_spec.2, hcomponents]
  have hplaces := follow_of_locate hp
  rw [habsolute, hsteps, follow_of_locate hq] at hplaces
  exact (Except.ok.inj hplaces).symm

example : (⟨"lib//./a.js"⟩ : Path).same ⟨"lib/a.js/"⟩ = true := by decide +kernel

end FileSystem

end EngineTrials
