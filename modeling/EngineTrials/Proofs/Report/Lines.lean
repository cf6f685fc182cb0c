import EngineTrials.Proofs.Text.Lines
import EngineTrials.Report.Render
import Mathlib.Algebra.BigOperators.Group.List.Basic
import Mathlib.Algebra.GroupWithZero.Nat
import Mathlib.Data.List.Forall2

/-! Reports in lines. The line feeds of a detail become blanks, but those of a path stay, so there
is one line for each entry exactly if no path has a line feed. Each one that a path has makes a line
more. -/

namespace EngineTrials

namespace Text

theorem length_lines (text : List Char) : (lines text).length = text.count '\n' + 1 := by
  induction text using lines_induction with
  | last hline => rw [lines_of_not_mem hline, List.count_eq_zero_of_not_mem hline]; rfl
  | next hline ih =>
    rw [lines_append_lineFeed, lines_of_not_mem hline, List.length_append, ih, List.count_append,
      List.count_eq_zero_of_not_mem hline, List.count_cons_self, List.length_singleton]
    omega

/-- The lines of texts that are each ended by a line feed. -/
theorem lines_flatMap {α : Type} (text : α → List Char) (items : List α) :
    lines (items.flatMap fun a => text a ++ ['\n']) =
      (items.flatMap fun a => lines (text a)) ++ [[]] := by
  induction items with
  | nil => rfl
  | cons a rest ih =>
    rw [List.flatMap_cons, List.append_assoc, List.singleton_append, lines_append_lineFeed, ih,
      List.flatMap_cons, List.append_assoc]

end Text

open Text

namespace ReportEntry

/-- What the line of an entry begins with. -/
def head (e : ReportEntry) : List Char := (e.verdict.label ++ " " ++ e.path).toList

/-- What comes after it: the detail, if there is one. -/
def tail (e : ReportEntry) : List Char :=
  if e.verdict.detail.isEmpty then []
  else ": ".toList ++ e.verdict.detail.toList.map fun c => if c = '\n' then ' ' else c

theorem toList_line (e : ReportEntry) : (Report.line e).toList = e.head ++ e.tail ++ ['\n'] := by
  unfold Report.line head tail
  dsimp only
  split
  case isTrue hempty =>
    have hdetail : e.verdict.detail.isEmpty = true := by simpa using hempty
    simp [hdetail]
  case isFalse hempty =>
    have hdetail : ¬ e.verdict.detail.isEmpty = true := by simpa using hempty
    simp [hdetail]

/-- The only line feeds before the end of a line are those of the path. -/
theorem count_lineFeed (e : ReportEntry) :
    (e.head ++ e.tail).count '\n' = e.path.toList.count '\n' := by
  have hlabel : e.verdict.label.toList.count '\n' = 0 := by
    unfold Verdict.label
    split <;> rfl
  have htail : e.tail.count '\n' = 0 := by
    rw [List.count_eq_zero, tail]
    split
    · exact List.not_mem_nil
    · simp only [List.mem_append, List.mem_map, not_or, not_exists, not_and]
      refine ⟨by decide, fun c _ => ?_⟩
      split
      · decide
      · assumption
  simp [head, htail, hlabel]

end ReportEntry

namespace Report

/-- A text in lines, all ended by a line feed, one for each entry: it begins with the label of the
verdict, a blank and the path. -/
def OneLineEach (entries : List ReportEntry) (text : List Char) : Prop :=
  ∃ rows, lines text = rows ++ [[]] ∧
    List.Forall₂ (fun (e : ReportEntry) row => e.head <+: row) entries rows

theorem lines_toLines (r : Report) : lines r.toLines.toList =
    (r.entries.flatMap fun e => lines (e.head ++ e.tail)) ++ [[]] := by
  have hjoin : r.toLines.toList = r.entries.flatMap fun e => e.head ++ e.tail ++ ['\n'] := by
    rw [toLines, String.toList_join, List.flatMap_map]
    simp only [ReportEntry.toList_line]
  rw [hjoin, lines_flatMap fun e : ReportEntry => e.head ++ e.tail]

/-- The rows of a report, all ended by a line feed, are as many as its entries and the line feeds of
their paths together. There is one for each entry, with its label and its path at the start, exactly
if no path has a line feed. -/
theorem oneLineEach_toLines_iff (r : Report) :
    (∃ rows, lines r.toLines.toList = rows ++ [[]] ∧
      rows.length = r.entries.length + (r.entries.map fun e => e.path.toList.count '\n').sum) ∧
    (OneLineEach r.entries r.toLines.toList ↔ ∀ e ∈ r.entries, '\n' ∉ e.path.toList) := by
  have hlength : (r.entries.flatMap fun e => lines (e.head ++ e.tail)).length =
      r.entries.length + (r.entries.map fun e => e.path.toList.count '\n').sum := by
    simp only [List.length_flatMap, length_lines, ReportEntry.count_lineFeed, List.sum_map_add,
      List.map_const', List.sum_replicate_nat, Nat.mul_one]
    exact Nat.add_comm ..
  refine ⟨⟨_, r.lines_toLines, hlength⟩, ?_, fun hpaths => ?_⟩
  · rintro ⟨rows, hrows, heach⟩ e he hfeed
    obtain rfl := List.append_cancel_right (r.lines_toLines.symm.trans hrows)
    -- with one row for each entry, none of the paths has a line feed to make a row more
    have hnone : (r.entries.map fun e => e.path.toList.count '\n').sum = 0 := by
      have hone := heach.length_eq
      omega
    have hpath := List.sum_eq_zero_iff_forall_eq_nat.1 hnone _ (List.mem_map_of_mem he)
    exact List.count_eq_zero.1 hpath hfeed
  · have hrows : (r.entries.flatMap fun e => lines (e.head ++ e.tail)) =
        r.entries.map fun e => e.head ++ e.tail := by
      rw [List.map_eq_flatMap]
      refine List.flatMap_congr fun e he => lines_of_not_mem ?_
      rw [← List.count_eq_zero, e.count_lineFeed]
      exact List.count_eq_zero_of_not_mem (hpaths e he)
    refine ⟨_, hrows ▸ r.lines_toLines, ?_⟩
    rw [List.forall₂_map_right_iff, List.forall₂_same]
    exact fun e _ => List.prefix_append ..

/-- A report on a file with a line feed in its name. -/
def brokenNameReport : Report := .ofEntries [{ path := "a\nb.js", verdict := .passed }]

/-- One passed fixture can take two lines. -/
theorem brokenNameReport_not_oneLineEach :
    ¬ OneLineEach brokenNameReport.entries brokenNameReport.toLines.toList := by
  have hlines : lines brokenNameReport.toLines.toList =
      ["PASS a".toList, "b.js".toList] ++ [[]] := by decide
  rintro ⟨rows, hrows, heach⟩
  obtain rfl := List.append_cancel_right (hlines.symm.trans hrows)
  exact absurd heach.length_eq (by decide)

end Report

end EngineTrials
