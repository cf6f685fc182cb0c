import Mathlib.Data.List.Forall2

/-! Computations that can fail, one after the other. A list of them succeeds if and only if each of
them does, with the results in their order. -/

namespace EngineTrials

section

variable {ε α β : Type} {f : α → Except ε β} {items : List α} {results : List β} {b : β}

theorem bind_eq_ok_iff {x : Except ε α} : x >>= f = .ok b ↔ ∃ a, x = .ok a ∧ f a = .ok b := by
  cases x with
  | error e => simp [bind, Except.bind]
  | ok a => simp [bind, Except.bind]

theorem mapM_eq_ok_iff :
    items.mapM f = .ok results ↔ List.Forall₂ (fun a b => f a = .ok b) items results := by
  induction items generalizing results with
  | nil => cases results <;> simp [pure, Except.pure]
  | cons a rest ih =>
    simp only [List.mapM_cons, bind_eq_ok_iff, ih, List.forall₂_cons_left_iff, pure, Except.pure,
      Except.ok.injEq]
    constructor
    · rintro ⟨b, hb, others, hothers, rfl⟩
      exact ⟨b, others, hb, hothers, rfl⟩
    · rintro ⟨b, others, hb, hothers, rfl⟩
      exact ⟨b, hb, others, hothers, rfl⟩

theorem exists_mapM_eq_ok_iff :
    (∃ results, items.mapM f = .ok results) ↔ ∀ a ∈ items, ∃ b, f a = .ok b := by
  simp only [mapM_eq_ok_iff]
  induction items with
  | nil => simp
  | cons a rest ih =>
    rw [List.forall_mem_cons, ← ih]
    constructor
    · rintro ⟨results, hresults⟩
      obtain ⟨b, others, hb, hothers, -⟩ := List.forall₂_cons_left_iff.1 hresults
      exact ⟨⟨b, hb⟩, others, hothers⟩
    · rintro ⟨⟨b, hb⟩, others, hrest⟩
      exact ⟨b :: others, .cons hb hrest⟩

theorem mem_of_mapM_eq_ok (h : items.mapM f = .ok results) :
    b ∈ results ↔ ∃ a ∈ items, f a = .ok b := by
  have hmap : items.map f = results.map .ok := by
    rw [← List.forall₂_eq_eq_eq, List.forall₂_map_left_iff, List.forall₂_map_right_iff]
    exact mapM_eq_ok_iff.1 h
  rw [← List.mem_map, hmap]
  simp

end

end EngineTrials
