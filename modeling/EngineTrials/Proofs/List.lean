import Mathlib.Data.List.Nodup
import Mathlib.Data.String.Basic

/-! Lists without repetitions: a list from which the repetitions next to each other have been taken
out, and one whose items are all results. -/

namespace EngineTrials

theorem List.eraseReps_loop {α : Type} [BEq α] (a : α) (rest before : List α) :
    List.eraseRepsBy.loop (· == ·) a rest before =
      before.reverse ++ List.eraseRepsBy.loop (· == ·) a rest [] := by
  induction rest generalizing a before with
  | nil => simp [List.eraseRepsBy.loop]
  | cons b rest ih =>
    rw [List.eraseRepsBy.loop, List.eraseRepsBy.loop]
    split
    · exact ih a before
    · rw [ih b (a :: before), ih b [a]]
      simp

theorem List.eraseReps_cons_cons {α : Type} [BEq α] [LawfulBEq α] (a b : α) (rest : List α) :
    (a :: b :: rest).eraseReps =
      if a == b then (b :: rest).eraseReps else a :: (b :: rest).eraseReps := by
  simp only [List.eraseReps, List.eraseRepsBy]
  rw [List.eraseRepsBy.loop]
  split
  · rename_i heq
    rw [if_pos heq, eq_of_beq heq]
  · rename_i hne
    rw [if_neg (by simp [hne]), List.eraseReps_loop]
    rfl

theorem List.mem_eraseReps {α : Type} [BEq α] [LawfulBEq α] {c : α} {items : List α} :
    c ∈ items.eraseReps ↔ c ∈ items := by
  induction items with
  | nil => rfl
  | cons a rest ih =>
    cases rest with
    | nil => rfl
    | cons b rest =>
      rw [List.eraseReps_cons_cons]
      split
      · rename_i heq
        rw [ih, eq_of_beq heq]
        simp
      · rw [List.mem_cons, ih, List.mem_cons (b := a)]

/-- What is in order, with repetitions, is strictly in order without them. -/
theorem List.pairwise_eraseReps {items : List String} (h : items.Pairwise (· ≤ ·)) :
    items.eraseReps.Pairwise (· < ·) := by
  induction items with
  | nil => exact .nil
  | cons a rest ih =>
    cases rest with
    | nil => exact List.pairwise_singleton ..
    | cons b rest =>
      have hrest := ih h.tail
      rw [List.eraseReps_cons_cons]
      split
      · exact hrest
      · rename_i hne
        have hab : a < b :=
          lt_of_le_of_ne (List.rel_of_pairwise_cons h List.mem_cons_self) (by simpa using hne)
        refine List.pairwise_cons.2 ⟨fun c hc => ?_, hrest⟩
        rcases List.mem_cons.1 (List.mem_eraseReps.1 hc) with rfl | hc
        · exact hab
        · exact lt_of_lt_of_le hab (List.rel_of_pairwise_cons h.tail hc)

theorem List.nodup_map_ok {ε α : Type} {items : List α} :
    (items.map (Except.ok : α → Except ε α)).Nodup ↔ items.Nodup :=
  List.nodup_map_iff fun a b h => by simpa using h

end EngineTrials
