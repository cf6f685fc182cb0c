import EngineTrials.Fixture.Declaration
import Mathlib.Data.List.TakeWhile

/-! The names of entry points: each is declared in the source, and holds no other characters than
those of names. -/

namespace EngineTrials

/-- All characters are those of names. -/
def IsName (text : List Char) : Prop := ∀ c ∈ text, isNameChar c = true

instance (text : List Char) : Decidable (IsName text) :=
  decidable_of_iff (text.all isNameChar = true) List.all_eq_true

section

variable {α : Type} [BEq α] [LawfulBEq α] {items more : List α} {a b : α}

/-- What the items add to those seen so far: those not among them, each at its first place. -/
theorem foldl_firstOccurrences (seen items : List α) :
    items.foldl (fun seen a => if seen.contains a then seen else seen ++ [a]) seen =
      seen ++ (firstOccurrences items).filter fun a => !seen.contains a := by
  induction items generalizing seen with
  | nil => simp [firstOccurrences]
  | cons first rest ih =>
    have hfirst : firstOccurrences (first :: rest) =
        first :: (firstOccurrences rest).filter fun a => !List.contains [first] a := ih [first]
    rw [List.foldl_cons, ih, hfirst]
    split
    case isTrue hseen =>
      rw [List.filter_cons_of_neg (by simpa using hseen), List.filter_filter]
      refine congrArg (seen ++ ·) (List.filter_congr fun a _ => ?_)
      by_cases ha : a = first
      · simp_all
      · simp [ha]
    case isFalse hnew =>
      rw [List.filter_cons_of_pos (by simpa using hnew), List.filter_filter, List.append_assoc,
        List.singleton_append]
      refine congrArg (seen ++ first :: ·) (List.filter_congr fun a _ => ?_)
      rw [Bool.eq_iff_iff]
      simp [not_or, and_comm]

theorem firstOccurrences_cons (first : α) (rest : List α) :
    firstOccurrences (first :: rest) = first :: (firstOccurrences rest).filter (· != first) := by
  refine (foldl_firstOccurrences [first] rest).trans ?_
  simp [bne]

theorem mem_firstOccurrences : a ∈ firstOccurrences items ↔ a ∈ items := by
  induction items with
  | nil => rfl
  | cons first rest ih =>
    rw [firstOccurrences_cons, List.mem_cons, List.mem_filter, ih, List.mem_cons, bne_iff_ne]
    by_cases ha : a = first <;> simp [ha]

theorem nodup_firstOccurrences (items : List α) : (firstOccurrences items).Nodup := by
  induction items with
  | nil => exact .nil
  | cons first rest ih =>
    rw [firstOccurrences_cons, List.nodup_cons]
    exact ⟨by simp, ih.filter _⟩

theorem firstOccurrences_append (items more : List α) :
    firstOccurrences (items ++ more) =
      firstOccurrences items ++ (firstOccurrences more).filter fun a => !items.contains a := by
  induction items with
  | nil => exact (List.filter_eq_self.2 fun _ _ => rfl).symm
  | cons first rest ih =>
    rw [List.cons_append, firstOccurrences_cons, ih, List.filter_append, List.filter_filter,
      firstOccurrences_cons, List.cons_append]
    refine congrArg (first :: _ ++ ·) (List.filter_congr fun a _ => ?_)
    simp [bne]

/-- Of two of the items, the one comes first of which there is one before any of the other. -/
theorem pairwise_firstOccurrences (items : List α) : (firstOccurrences items).Pairwise fun a b =>
    ∃ before after, items = before ++ a :: after ∧ b ∉ before ++ [a] := by
  induction items with
  | nil => exact .nil
  | cons first rest ih =>
    rw [firstOccurrences_cons, List.pairwise_cons]
    refine ⟨fun b hb => ⟨[], rest, rfl, by simpa using (List.mem_filter.1 hb).2⟩, ?_⟩
    refine (ih.filter _).imp_of_mem fun {a b} _ hb hfirst => ?_
    obtain ⟨before, after, hrest, hnew⟩ := hfirst
    refine ⟨first :: before, after, by rw [hrest, List.cons_append], ?_⟩
    exact List.not_mem_cons_of_ne_of_not_mem (by simpa using (List.mem_filter.1 hb).2) hnew

end

theorem isName_of_entryPoint? {text name : List Char} (h : entryPoint? text = some name) :
    IsName name := by
  simp only [entryPoint?, Option.bind_eq_bind, Option.bind_eq_some_iff] at h
  obtain ⟨rest, -, h⟩ := h
  split_ifs at h
  simp only [Option.bind_eq_some_iff, Option.some.injEq] at h
  obtain ⟨_, -, _, -, _, -, rfl⟩ := h
  intro c hc
  exact List.mem_takeWhile_imp hc

theorem isName_of_mem_entryPoints {source name : String} (h : name ∈ entryPoints source) :
    IsName name.toList := by
  have hmem := mem_firstOccurrences.1 h
  simp only [List.mem_map, List.mem_filterMap] at hmem
  obtain ⟨letters, ⟨text, -, hletters⟩, rfl⟩ := hmem
  rw [String.toList_ofList]
  exact isName_of_entryPoint? hletters

end EngineTrials
