import EngineTrials.Text.Blank
import Mathlib.Data.List.DropRight

/-! Trimming. White space around a text does not change what is left of it, nothing is left only of
white space, and what is left starts with another character. -/

namespace EngineTrials.Text

variable {text before after : List Char} {c : Char}

theorem dropEndWhile_eq_rdropWhile (p : Char → Bool) (text : List Char) :
    dropEndWhile p text = text.rdropWhile p := rfl

theorem dropEndWhile_append {p : Char → Bool} (h : ∀ c ∈ after, p c = true) :
    dropEndWhile p (text ++ after) = dropEndWhile p text := by
  rw [dropEndWhile, List.reverse_append, List.dropWhile_append_of_pos (by simpa using h),
    dropEndWhile]

/-- Nothing is left out before a character that stays. -/
theorem dropEndWhile_append_cons {p : Char → Bool} (h : p c = false) :
    dropEndWhile p (text ++ c :: after) = text ++ c :: dropEndWhile p after := by
  rw [dropEndWhile, List.reverse_append, List.reverse_cons, List.append_assoc, List.dropWhile_append,
    dropEndWhile]
  split
  case isTrue hempty =>
    rw [List.isEmpty_iff.1 hempty]
    simp [h]
  case isFalse hkept =>
    simp

theorem dropEndWhile_concat {p : Char → Bool} (h : p c = false) :
    dropEndWhile p (text ++ [c]) = text ++ [c] := dropEndWhile_append_cons h

theorem exists_dropEndWhile (p : Char → Bool) (text : List Char) :
    ∃ tail, text = dropEndWhile p text ++ tail ∧ ∀ c ∈ tail, p c = true :=
  ⟨text.rtakeWhile p, List.rdropWhile_append_rtakeWhile.symm, fun _ => List.mem_rtakeWhile_imp⟩

theorem dropEndWhile_congr {p q : Char → Bool} (h : ∀ c ∈ text, p c = q c) :
    dropEndWhile p text = dropEndWhile q text := by
  have hreverse : ∀ reversed : List Char, (∀ c ∈ reversed, p c = q c) →
      reversed.dropWhile p = reversed.dropWhile q := by
    intro reversed hsame
    induction reversed with
    | nil => rfl
    | cons c rest ih =>
      obtain ⟨hc, hrest⟩ := List.forall_mem_cons.1 hsame
      rw [List.dropWhile_cons, List.dropWhile_cons, hc, ih hrest]
  rw [dropEndWhile, hreverse _ (by simpa using h), dropEndWhile]

theorem not_isWhite_of_skipWhite {rest : List Char} (h : skipWhite text = c :: rest) :
    isWhite c = false := by
  have hhead := List.head?_dropWhile_not isWhite text
  rwa [← skipWhite, h] at hhead

theorem trim_eq_nil_iff : trim text = [] ↔ ∀ c ∈ text, isWhite c = true := by
  rw [trim, dropEndWhile_eq_rdropWhile, List.rdropWhile_eq_nil_iff, ← List.dropWhile_eq_nil_iff,
    skipWhite, List.dropWhile_idempotent, List.dropWhile_eq_nil_iff]

theorem trim_white_append (text : List Char) (h : ∀ c ∈ before, isWhite c = true) :
    trim (before ++ text) = trim text := by
  rw [trim, skipWhite, List.dropWhile_append_of_pos h, ← skipWhite, ← trim]

theorem trim_append_white (text : List Char) (h : ∀ c ∈ after, isWhite c = true) :
    trim (text ++ after) = trim text := by
  by_cases hwhite : ∀ c ∈ text, isWhite c = true
  · rw [trim_eq_nil_iff.2 hwhite, trim_eq_nil_iff]
    exact fun c hc => (List.mem_append.1 hc).elim (hwhite c) (h c)
  · have hne : ¬ (text.dropWhile isWhite).isEmpty = true := by
      rwa [List.isEmpty_iff, List.dropWhile_eq_nil_iff]
    rw [trim, skipWhite, List.dropWhile_append, if_neg hne, dropEndWhile_append h, ← skipWhite,
      ← trim]

theorem head?_trim_cons (rest : List Char) (h : isWhite c = false) :
    (trim (c :: rest)).head? = some c := by
  have hkept : trim (c :: rest) <+: c :: rest := by
    rw [trim, skipWhite, List.dropWhile_cons_of_neg (by simp [h])]
    exact List.rdropWhile_prefix ..
  cases htrim : trim (c :: rest) with
  | nil => simp [trim_eq_nil_iff, h] at htrim
  | cons d more =>
    rw [htrim, List.cons_prefix_cons] at hkept
    rw [List.head?_cons, hkept.1]

theorem not_isWhite_of_head?_trim (h : (trim text).head? = some c) : isWhite c = false := by
  have hkept : trim text <+: skipWhite text := List.rdropWhile_prefix ..
  obtain ⟨ending, hskip⟩ := hkept
  obtain ⟨more, htrim⟩ := List.head?_eq_some_iff.1 h
  rw [htrim, List.cons_append] at hskip
  exact not_isWhite_of_skipWhite hskip.symm

/-- A text is its own trimmed text if it neither starts nor ends with white space. -/
theorem trim_eq_self_iff : trim text = text ↔
    (∀ c, text.head? = some c → isWhite c = false) ∧
      ∀ c, text.getLast? = some c → isWhite c = false := by
  have hstart : skipWhite text = text ↔ ∀ c, text.head? = some c → isWhite c = false := by
    cases text with
    | nil => simp [skipWhite]
    | cons c rest => simp [skipWhite, List.dropWhile_eq_self_iff]
  have hend : dropEndWhile isWhite text = text ↔
      ∀ c, text.getLast? = some c → isWhite c = false := by
    rw [dropEndWhile_eq_rdropWhile, List.rdropWhile_eq_self_iff]
    cases text using List.reverseRecOn with
    | nil => simp
    | append_singleton rest c => simp
  rw [← hstart, ← hend]
  constructor
  · intro h
    have hkept : trim text <+: skipWhite text := List.rdropWhile_prefix ..
    rw [h] at hkept
    have hskip : skipWhite text = text :=
      (List.dropWhile_suffix isWhite).eq_of_length_le hkept.length_le
    exact ⟨hskip, by rwa [trim, hskip] at h⟩
  · rintro ⟨hskip, hdrop⟩
    rw [trim, hskip, hdrop]

end EngineTrials.Text
