import EngineTrials.Text.Search
import Mathlib.Data.List.Basic

/-! Lines of a text. What is read at the start of each line without looking past its end is what is
read of the lines on their own. -/

namespace EngineTrials.Text

variable {line rest : List Char}

theorem lines_of_not_mem (h : '\n' ∉ line) : lines line = [line] := pieces_of_not_mem h

theorem lines_append_lineFeed (before after : List Char) :
    lines (before ++ '\n' :: after) = lines before ++ lines after := pieces_append_cons '\n' _ _

theorem suffixesAfter_of_not_mem (h : '\n' ∉ line) :
    suffixesAfter (· == '\n') (line ++ rest) = suffixesAfter (· == '\n') rest := by
  induction line with
  | nil => rfl
  | cons c line ih =>
    obtain ⟨hc, hline⟩ := not_or.1 (mt List.mem_cons.2 h)
    rw [List.cons_append, suffixesAfter, if_neg (by simpa using Ne.symm hc), ih hline]

theorem mem_suffixesAfter_iff {p : Char → Bool} {text : List Char} :
    rest ∈ suffixesAfter p text ↔ ∃ before c, p c = true ∧ text = before ++ c :: rest := by
  induction text with
  | nil => simp [suffixesAfter]
  | cons d text ih =>
    have hcons : (∃ before c, p c = true ∧ d :: text = before ++ c :: rest) ↔
        (p d = true ∧ text = rest) ∨ ∃ before c, p c = true ∧ text = before ++ c :: rest := by
      constructor
      · rintro ⟨before, c, hc, htext⟩
        cases before with
        | nil =>
          obtain ⟨rfl, rfl⟩ := List.cons.inj htext
          exact .inl ⟨hc, rfl⟩
        | cons first before => exact .inr ⟨before, c, hc, (List.cons.inj htext).2⟩
      · rintro (⟨hd, rfl⟩ | ⟨before, c, hc, rfl⟩)
        · exact ⟨[], d, hd, rfl⟩
        · exact ⟨d :: before, c, hc, rfl⟩
    rw [hcons, ← ih, suffixesAfter]
    split
    case isTrue hd => simp [hd, eq_comm]
    case isFalse hd => simp [hd]

theorem lineStarts_of_not_mem (h : '\n' ∉ line) : lineStarts line = [line] := by
  have hnone : suffixesAfter (· == '\n') (line ++ []) = [] := suffixesAfter_of_not_mem h
  rw [List.append_nil] at hnone
  rw [lineStarts, hnone]

theorem lineStarts_append_lineFeed (h : '\n' ∉ line) :
    lineStarts (line ++ '\n' :: rest) = (line ++ '\n' :: rest) :: lineStarts rest := by
  rw [lineStarts, suffixesAfter_of_not_mem h]
  rfl

/-- A list is a part without the separator, or such a part, the separator and another list. -/
theorem separated_induction {α : Type} {separator : α} {motive : List α → Prop}
    (last : ∀ {part}, separator ∉ part → motive part)
    (next : ∀ {part rest}, separator ∉ part → motive rest → motive (part ++ separator :: rest))
    (items : List α) : motive items := by
  induction hlength : items.length using Nat.strongRecOn generalizing items with
  | _ n ih =>
    by_cases hmem : separator ∈ items
    · obtain ⟨part, rest, rfl, hpart⟩ := List.eq_append_cons_of_mem hmem
      refine next hpart (ih rest.length ?_ rest rfl)
      rw [← hlength, List.length_append, List.length_cons]
      omega
    · exact last hmem

theorem lines_induction {motive : List Char → Prop} (last : ∀ {line}, '\n' ∉ line → motive line)
    (next : ∀ {line rest}, '\n' ∉ line → motive rest → motive (line ++ '\n' :: rest))
    (text : List Char) : motive text := separated_induction last next text

theorem map_lineStarts {α : Type} {read : List Char → α}
    (h : ∀ line rest, '\n' ∉ line → read (line ++ '\n' :: rest) = read line) (text : List Char) :
    (lineStarts text).map read = (lines text).map read := by
  induction text using lines_induction with
  | last hline => rw [lineStarts_of_not_mem hline, lines_of_not_mem hline]
  | @next line rest hline ih =>
    rw [lineStarts_append_lineFeed hline, lines_append_lineFeed, lines_of_not_mem hline,
      List.map_cons, ih, h line rest hline, List.singleton_append, List.map_cons]

theorem filterMap_lineStarts {α : Type} {read : List Char → Option α}
    (h : ∀ line rest, '\n' ∉ line → read (line ++ '\n' :: rest) = read line) (text : List Char) :
    (lineStarts text).filterMap read = (lines text).filterMap read := by
  have hmap : ∀ all : List (List Char), all.filterMap read = (all.map read).filterMap id :=
    fun all => by rw [List.filterMap_map, Function.id_comp]
  rw [hmap, hmap, map_lineStarts h]

/-- What stands at the start of a text and holds no line feed stands at the start of its first
line. -/
theorem exists_head_append_lineFeed {Head : List Char → Prop}
    (hhead : ∀ head, Head head → '\n' ∉ head) :
    (∃ head after, Head head ∧ line ++ '\n' :: rest = head ++ after) ↔
      ∃ head after, Head head ∧ line = head ++ after := by
  constructor
  · rintro ⟨head, after, h, htext⟩
    obtain ⟨more, rfl, hmore⟩ | ⟨more, rfl, -⟩ := List.append_eq_append_iff.1 htext
    · -- the head would go on past the end of the line
      cases more with
      | nil => exact ⟨line, [], by simpa using h, (List.append_nil _).symm⟩
      | cons c more =>
        obtain ⟨rfl, -⟩ := List.cons.inj hmore
        exact absurd (List.mem_append_right line List.mem_cons_self) (hhead _ h)
    · exact ⟨head, more, h, rfl⟩
  · rintro ⟨head, after, h, rfl⟩
    exact ⟨head, after ++ '\n' :: rest, h, List.append_assoc ..⟩

end EngineTrials.Text
