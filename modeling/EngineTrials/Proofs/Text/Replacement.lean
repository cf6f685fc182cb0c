import EngineTrials.Text.Search
import Mathlib.Data.List.Infix

/-! Occurrences of one text in another and their replacement. `Replaced` says what replacing from
left to right gives: a text that starts with an occurrence loses it at once, any other character
stays. Two parts of a text with a character between them that occurs in no occurrence are replaced
each on its own. -/

namespace EngineTrials.Text

theorem occursIn_iff_infix {needle text : List Char} :
    occursIn needle text = true ↔ needle <:+: text := by
  induction text with
  | nil => simp [occursIn]
  | cons c rest ih => simp [occursIn, ih, List.infix_cons_iff]

theorem not_infix_of_occursIn {mark text : List Char} (h : occursIn mark text = false) :
    ¬ mark <:+: text := by
  rw [← occursIn_iff_infix, h]
  exact Bool.false_ne_true

theorem contains_iff_infix {s needle : String} :
    contains s needle = true ↔ needle.toList <:+: s.toList :=
  occursIn_iff_infix

/-- The texts before and after all occurrences of `old` have been replaced by `new`. -/
inductive Replaced (old new : List Char) : List Char → List Char → Prop
  | nil : Replaced old new [] []
  | keep {c : Char} {rest out : List Char} :
      ¬ old <+: c :: rest → Replaced old new rest out → Replaced old new (c :: rest) (c :: out)
  | swap {rest out : List Char} :
      Replaced old new rest out → Replaced old new (old ++ rest) (new ++ out)

section

variable {old new text out : List Char}

theorem replaceFrom_skip (old new : List Char) (skip : Nat) (text : List Char) :
    replaceFrom old new skip text = replaceFrom old new 0 (text.drop skip) := by
  induction text generalizing skip with
  | nil => simp [replaceFrom]
  | cons c rest ih =>
    cases skip with
    | zero => rfl
    | succ skip => rw [replaceFrom, ih, List.drop_succ_cons]

theorem replaceFrom_append (hold : old ≠ []) (rest : List Char) :
    replaceFrom old new 0 (old ++ rest) = new ++ replaceFrom old new 0 rest := by
  obtain ⟨c, more, rfl⟩ := List.exists_cons_of_ne_nil hold
  have hprefix : (c :: more).isPrefixOf (c :: (more ++ rest)) = true :=
    List.isPrefixOf_iff_prefix.2 (List.prefix_append (c :: more) rest)
  rw [List.cons_append, replaceFrom, if_pos hprefix, replaceFrom_skip]
  simp

theorem replaceFrom_cons {c : Char} {rest : List Char} (h : ¬ old <+: c :: rest) :
    replaceFrom old new 0 (c :: rest) = c :: replaceFrom old new 0 rest := by
  rw [replaceFrom, if_neg fun hprefix => h (List.isPrefixOf_iff_prefix.1 hprefix)]

theorem replaced_replaceFrom (hold : old ≠ []) (text : List Char) :
    Replaced old new text (replaceFrom old new 0 text) := by
  -- an occurrence is swallowed whole, so the induction is on the length of what is left
  induction hlength : text.length using Nat.strong_induction_on generalizing text with
  | _ length ih =>
    subst hlength
    by_cases hprefix : old <+: text
    · obtain ⟨rest, rfl⟩ := hprefix
      have hpos := List.length_pos_of_ne_nil hold
      rw [replaceFrom_append hold]
      exact .swap (ih rest.length (by rw [List.length_append]; omega) rest rfl)
    · cases text with
      | nil => exact .nil
      | cons c rest =>
        rw [replaceFrom_cons hprefix]
        exact .keep hprefix (ih rest.length (by simp) rest rfl)

/-- Replacing gives the one text that all occurrences have been replaced in. -/
theorem replaceFrom_eq_iff (hold : old ≠ []) :
    replaceFrom old new 0 text = out ↔ Replaced old new text out := by
  constructor
  · rintro rfl
    exact replaced_replaceFrom hold text
  · intro h
    induction h with
    | nil => rfl
    | keep hprefix _ ih => rw [replaceFrom_cons hprefix, ih]
    | swap _ ih => rw [replaceFrom_append hold, ih]

theorem prefix_append_cons_iff {c : Char} (hc : c ∉ old) {a b : List Char} :
    old <+: a ++ c :: b ↔ old <+: a := by
  constructor
  · intro h
    by_cases hlength : old.length ≤ a.length
    · exact List.prefix_of_prefix_length_le h (List.prefix_append a _) hlength
    · have hbefore : a ++ [c] <+: a ++ c :: b := ⟨b, by simp⟩
      have hwithin : a ++ [c] <+: old :=
        List.prefix_of_prefix_length_le hbefore h (by rw [List.length_append]; simp; omega)
      exact absurd (hwithin.subset (by simp)) hc
  · intro h
    exact h.trans (List.prefix_append a _)

namespace Replaced

theorem append_cons {c : Char} (hold : old ≠ []) (hc : c ∉ old) {a a' b b' : List Char}
    (ha : Replaced old new a a') (hb : Replaced old new b b') :
    Replaced old new (a ++ c :: b) (a' ++ c :: b') := by
  induction ha with
  | nil =>
    refine .keep (fun hprefix => hold ?_) hb
    exact List.prefix_nil.1 ((prefix_append_cons_iff (a := []) hc).1 hprefix)
  | keep hprefix _ ih =>
    exact .keep (fun h => hprefix ((prefix_append_cons_iff (a := _ :: _) hc).1 h)) ih
  | swap _ ih =>
    rw [List.append_assoc, List.append_assoc]
    exact .swap ih

theorem cons {c : Char} (hold : old ≠ []) (hc : c ∉ old) (h : Replaced old new text out) :
    Replaced old new (c :: text) (c :: out) :=
  append_cons hold hc .nil h

theorem whole : Replaced old new old new := by
  have h : Replaced old new (old ++ []) (new ++ []) := .swap .nil
  rwa [List.append_nil, List.append_nil] at h

theorem unchanged (h : ¬ old <:+: text) : Replaced old new text text := by
  induction text with
  | nil => exact .nil
  | cons c rest ih =>
    rw [List.infix_cons_iff, not_or] at h
    exact .keep h.1 (ih h.2)

theorem mem {c : Char} (h : Replaced old new text out) (hc : c ∈ out) : c ∈ text ∨ c ∈ new := by
  induction h with
  | nil => simp at hc
  | keep _ _ ih =>
    rcases List.mem_cons.1 hc with rfl | hc
    · exact .inl List.mem_cons_self
    · exact (ih hc).imp_left (List.mem_cons_of_mem _)
  | swap _ ih =>
    rcases List.mem_append.1 hc with hc | hc
    · exact .inr hc
    · exact (ih hc).imp_left (List.mem_append_right _)

theorem count_le {c : Char} (h : Replaced old new text out) (hc : new.count c ≤ old.count c) :
    out.count c ≤ text.count c := by
  induction h with
  | nil => exact Nat.le_refl _
  | keep _ _ ih =>
    rw [List.count_cons, List.count_cons]
    omega
  | swap _ ih =>
    rw [List.count_append, List.count_append]
    omega

theorem count_lt {c : Char} (h : Replaced old new text out) (hc : new.count c < old.count c)
    (hoccurs : old <:+: text) : out.count c < text.count c := by
  induction h with
  | nil =>
    obtain rfl := List.infix_nil.1 hoccurs
    exact absurd hc (by simp)
  | keep hprefix _ ih =>
    have hrest := ih ((List.infix_cons_iff.1 hoccurs).resolve_left hprefix)
    rw [List.count_cons, List.count_cons]
    omega
  | swap hrest _ =>
    have hle := hrest.count_le (Nat.le_of_lt hc)
    rw [List.count_append, List.count_append]
    omega

end Replaced

end

/-! Strings. -/

/-- On strings, replacing gives the one string that all occurrences have been replaced in. -/
theorem replace_eq_iff {s old new out : String} (hold : old.toList ≠ []) :
    replace s old new = out ↔ Replaced old.toList new.toList s.toList out.toList := by
  rw [← replaceFrom_eq_iff hold, replace]
  constructor
  · rintro rfl
    rw [String.toList_ofList]
  · intro h
    rw [h, String.ofList_toList]

theorem replaced_replace {old : String} (hold : old.toList ≠ []) (s new : String) :
    Replaced old.toList new.toList s.toList (replace s old new).toList :=
  (replace_eq_iff hold).1 rfl

theorem replace_eq_self {s old new : String} (hold : old.toList ≠ [])
    (h : contains s old = false) : replace s old new = s := by
  rw [replace_eq_iff hold]
  exact .unchanged (not_infix_of_occursIn h)

end EngineTrials.Text
