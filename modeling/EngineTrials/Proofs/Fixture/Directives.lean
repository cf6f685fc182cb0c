import EngineTrials.Fixture.Directive
import EngineTrials.Proofs.Text.Searching
import Mathlib.Data.List.TakeWhile
import Mathlib.Tactic.SplitIfs

/-! Load directives line by line. A call of `load` that starts a line ends on that line, so the
directives of a source are those of its lines, each line on its own. A search of the whole text from
left to right, which goes on after each call that it has found, finds the same ones. -/

namespace EngineTrials

open Text

/-- Spaces and tabs only. -/
def Text.AllBlank (text : List Char) : Prop := ∀ c ∈ text, isBlank c = true

/-- A call of `load` on a quoted path, from the blanks before it to its closing parenthesis. -/
inductive IsCall (path : List Char) : List Char → Prop
  | mk {margin gap inner outer mark} (hmargin : AllBlank margin) (hgap : AllBlank gap)
    (hinner : AllBlank inner) (houter : AllBlank outer) (hmark : mark = '"' ∨ mark = '\'')
    (hne : path ≠ []) (hpath : mark ∉ path) (hline : '\n' ∉ path) :
    IsCall path (margin ++ "load".toList ++ gap ++ '(' :: inner ++ mark :: path ++
      mark :: outer ++ [')'])

/-- A line that asks for a path: it starts with a call, whatever follows. -/
def Asks (line path : List Char) : Prop := ∃ call rest, IsCall path call ∧ line = call ++ rest

section

variable {text line rest path call : List Char} {c : Char}

theorem Text.AllBlank.not_mem {blank : List Char} (h : AllBlank blank) (hc : isBlank c = false) :
    c ∉ blank := by
  intro hmem
  exact Bool.false_ne_true (hc.symm.trans (h c hmem))

theorem Text.allBlank_takeWhile (text : List Char) : AllBlank (text.takeWhile isBlank) :=
  fun _ hc => List.mem_takeWhile_imp hc

theorem Text.takeWhile_append_skipBlanks (text : List Char) :
    text.takeWhile isBlank ++ skipBlanks text = text := List.takeWhile_append_dropWhile

theorem Text.skipBlanks_append {blank : List Char} (h : AllBlank blank) (hc : isBlank c = false) :
    skipBlanks (blank ++ c :: rest) = c :: rest := by
  rw [skipBlanks, List.dropWhile_append_of_pos h, List.dropWhile_cons_of_neg (by simp [hc])]

theorem Text.after?_skipBlanks_eq_some_iff (literal : String) {more : List Char}
    (hliteral : literal.toList = c :: more) (hc : isBlank c = false) :
    after? literal (skipBlanks text) = some rest ↔
      ∃ blank, AllBlank blank ∧ text = blank ++ literal.toList ++ rest := by
  rw [after?, dropLiteral?_eq_some_iff]
  constructor
  · intro h
    refine ⟨text.takeWhile isBlank, allBlank_takeWhile text, ?_⟩
    rw [List.append_assoc, ← h, takeWhile_append_skipBlanks]
  · rintro ⟨blank, hblank, rfl⟩
    rw [hliteral, List.append_assoc, List.cons_append, skipBlanks_append hblank hc]

theorem Text.after?_open_eq_some_iff : after? "(" (skipBlanks text) = some rest ↔
    ∃ blank, AllBlank blank ∧ text = blank ++ '(' :: rest := by
  simpa using @after?_skipBlanks_eq_some_iff text rest '(' "(" [] rfl rfl

theorem Text.after?_close_eq_some_iff : after? ")" (skipBlanks text) = some rest ↔
    ∃ blank, AllBlank blank ∧ text = blank ++ ')' :: rest := by
  simpa using @after?_skipBlanks_eq_some_iff text rest ')' ")" [] rfl rfl

theorem Text.isWithin_iff {mark : Char} : isWithin mark c = true ↔ c ≠ mark ∧ c ≠ '\n' := by
  simp [isWithin]

theorem Text.quoted?_eq_some_iff : quoted? text = some (path, rest) ↔
    ∃ mark, (mark = '"' ∨ mark = '\'') ∧ mark ∉ path ∧ '\n' ∉ path ∧
      text = mark :: path ++ mark :: rest := by
  constructor
  · intro h
    cases text with
    | nil => simp [quoted?] at h
    | cons mark after =>
      rw [quoted?] at h
      split_ifs at h with hmark
      cases hdrop : after.dropWhile (isWithin mark) with
      | nil => simp [hdrop] at h
      | cons last tail =>
        simp only [hdrop] at h
        split_ifs at h with hlast
        subst hlast
        obtain ⟨rfl, rfl⟩ : after.takeWhile (isWithin last) = path ∧ tail = rest := by
          simpa using h
        refine ⟨last, hmark, fun hmem => ?_, fun hmem => ?_, ?_⟩
        · exact (isWithin_iff.1 (List.mem_takeWhile_imp hmem)).1 rfl
        · exact (isWithin_iff.1 (List.mem_takeWhile_imp hmem)).2 rfl
        · rw [← hdrop, List.cons_append, List.takeWhile_append_dropWhile]
  · rintro ⟨mark, hmark, hpath, hline, rfl⟩
    have hwithin : ∀ c ∈ path, isWithin mark c = true := fun c hc =>
      isWithin_iff.2 ⟨fun heq => hpath (heq ▸ hc), fun heq => hline (heq ▸ hc)⟩
    have hstop : ¬ isWithin mark mark = true := fun h => (isWithin_iff.1 h).1 rfl
    have hdrop : (path ++ mark :: rest).dropWhile (isWithin mark) = mark :: rest := by
      rw [List.dropWhile_append_of_pos hwithin, List.dropWhile_cons_of_neg hstop]
    have htake : (path ++ mark :: rest).takeWhile (isWithin mark) = path := by
      rw [List.takeWhile_append_of_pos hwithin, List.takeWhile_cons_of_neg hstop, List.append_nil]
    rw [List.cons_append, quoted?, if_pos hmark, hdrop, htake]
    exact if_pos rfl

theorem IsCall.no_lineFeed (h : IsCall path call) : '\n' ∉ call := by
  obtain ⟨hmargin, hgap, hinner, houter, hmark, -, -, hline⟩ := h
  have hfeed : isBlank '\n' = false := by decide
  have hname : '\n' ∉ "load".toList := by decide
  have hquote : ∀ {mark : Char}, mark = '"' ∨ mark = '\'' → '\n' ≠ mark := by
    rintro mark (rfl | rfl) <;> decide
  simp [hmargin.not_mem hfeed, hgap.not_mem hfeed, hinner.not_mem hfeed, houter.not_mem hfeed,
    hline, hquote hmark]

theorem IsCall.ne_nil (h : IsCall path call) : call ≠ [] := by
  cases h
  simp

theorem directivePath?_eq_some_iff : directivePath? text = some path ↔ Asks text path := by
  have hload : ∀ {text rest}, after? "load" (skipBlanks text) = some rest ↔
      ∃ blank, AllBlank blank ∧ text = blank ++ "load".toList ++ rest :=
    after?_skipBlanks_eq_some_iff "load" rfl rfl
  constructor
  · intro h
    simp only [directivePath?, Option.bind_eq_bind, Option.bind_eq_some_iff] at h
    obtain ⟨call, hcall, argument, hargument, ⟨quoted, after⟩, hquoted, h⟩ := h
    split_ifs at h with hne
    simp only [Option.bind_eq_some_iff, Option.some.injEq] at h
    obtain ⟨rest, hrest, rfl⟩ := h
    obtain ⟨margin, hmargin, rfl⟩ := hload.1 hcall
    obtain ⟨gap, hgap, rfl⟩ := after?_open_eq_some_iff.1 hargument
    obtain ⟨outer, houter, rfl⟩ := after?_close_eq_some_iff.1 hrest
    obtain ⟨mark, hmark, hpath, hline, hinner⟩ := quoted?_eq_some_iff.1 hquoted
    refine ⟨_, rest, .mk hmargin hgap (allBlank_takeWhile argument) houter hmark hne hpath hline,
      ?_⟩
    have hopen := takeWhile_append_skipBlanks argument
    rw [hinner] at hopen
    conv_lhs => rw [← hopen]
    simp
  · rintro ⟨-, rest, @⟨margin, gap, inner, outer, mark, hmargin, hgap, hinner, houter, hmark, hne,
      hpath, hline⟩, rfl⟩
    have hquote : isBlank mark = false := by rcases hmark with rfl | rfl <;> decide
    have hskip : skipBlanks (inner ++ mark :: path ++ mark :: (outer ++ ')' :: rest)) =
        mark :: path ++ mark :: (outer ++ ')' :: rest) := by
      rw [List.append_assoc]
      exact skipBlanks_append hinner hquote
    simp only [directivePath?, Option.bind_eq_bind, Option.bind_eq_some_iff]
    refine ⟨gap ++ '(' :: (inner ++ mark :: path ++ mark :: (outer ++ ')' :: rest)),
      hload.2 ⟨margin, hmargin, by simp⟩, _, after?_open_eq_some_iff.2 ⟨gap, hgap, rfl⟩,
      (path, outer ++ ')' :: rest),
      quoted?_eq_some_iff.2 ⟨mark, hmark, hpath, hline, hskip⟩, ?_⟩
    rw [if_neg hne]
    exact Option.bind_eq_some_iff.2
      ⟨rest, after?_close_eq_some_iff.2 ⟨outer, houter, rfl⟩, rfl⟩

/-- A call is not empty, and it ends on the line that it starts. -/
theorem onOneLine_isCall : OnOneLine IsCall := fun _ _ hcall => ⟨hcall.ne_nil, hcall.no_lineFeed⟩

theorem readsHead_directivePath? : ReadsHead IsCall directivePath? := fun _ _ =>
  directivePath?_eq_some_iff

/-! The directives of a source. -/

/-- The same directive so many lines further down. -/
def LoadDirective.movedBy (d : LoadDirective) (k : Nat) : LoadDirective :=
  { d with line := d.line + k }

/-- The directive for a path that a line asks for, the line having a number. -/
def LoadDirective.ofHit (hit : List Char × Nat) : LoadDirective := ⟨String.ofList hit.1, hit.2⟩

theorem LoadDirective.ofHit_eq_iff {hit : List Char × Nat} {d : LoadDirective} :
    ofHit hit = d ↔ hit = (d.path.toList, d.line) := by
  obtain ⟨path, line⟩ := d
  obtain ⟨letters, number⟩ := hit
  simp [ofHit, String.ext_iff]

theorem filterMap_zipIdx_eq (texts : List (List Char)) (n : Nat) :
    ((texts.zipIdx n).filterMap fun (text, line) =>
        (directivePath? text).map fun path => (⟨String.ofList path, line⟩ : LoadDirective)) =
      (numbered n (texts.map directivePath?)).map .ofHit := by
  induction texts generalizing n with
  | nil => rfl
  | cons text rest ih =>
    rw [List.zipIdx_cons, List.map_cons, List.filterMap_cons, ih]
    dsimp only
    cases directivePath? text with
    | none => rfl
    | some path => rfl

theorem loadDirectives_eq (source : String) : loadDirectives source =
    (numbered 1 ((lines source.toList).map directivePath?)).map .ofHit := by
  rw [← map_lineStarts fun _ _ _ => readsHead_directivePath?.append_lineFeed onOneLine_isCall]
  exact filterMap_zipIdx_eq _ 1

/-- A search of the whole text finds the directives of its lines: a directive has the number of a
line that asks for its path, no two have the same number, and they stand in the order of the lines.
So the directives of two texts with a line feed between them are those of the one, and those of the
other moved down by the lines of the one. -/
theorem loadDirectives_by_lines (source : String) :
    Finds IsCall source.toList ((loadDirectives source).map fun d => (d.path.toList, d.line)) ∧
      (∀ d, d ∈ loadDirectives source ↔ ∃ i line, (lines source.toList)[i]? = some line ∧
        Asks line d.path.toList ∧ d.line = i + 1) ∧
      (loadDirectives source).Pairwise (fun a b => a.line < b.line) ∧
      ∀ before after : String, loadDirectives (before ++ "\n" ++ after) =
        loadDirectives before ++
          (loadDirectives after).map (·.movedBy (lines before.toList).length) := by
  refine ⟨?_, fun d => ?_, ?_, fun before after => ?_⟩
  · have hback : (fun d : LoadDirective => (d.path.toList, d.line)) ∘ LoadDirective.ofHit = id :=
      funext fun hit => (LoadDirective.ofHit_eq_iff.1 rfl).symm
    rw [loadDirectives_eq, List.map_map, hback, List.map_id]
    exact finds_numbered readsHead_directivePath? onOneLine_isCall _
  · simp only [loadDirectives_eq, List.mem_map, LoadDirective.ofHit_eq_iff, exists_eq_right,
      mem_numbered_iff]
    refine exists_congr fun i => ?_
    rw [List.getElem?_map, Option.map_eq_some_iff]
    constructor
    · rintro ⟨⟨line, hline, hread⟩, hnumber⟩
      exact ⟨line, hline, directivePath?_eq_some_iff.1 hread, by omega⟩
    · rintro ⟨line, hline, hasks, hnumber⟩
      exact ⟨⟨line, hline, directivePath?_eq_some_iff.2 hasks⟩, by omega⟩
  · rw [loadDirectives_eq]
    exact (pairwise_numbered 1 _).map _ fun _ _ hlt => hlt
  · have htext : (before ++ "\n" ++ after).toList = before.toList ++ '\n' :: after.toList := by simp
    rw [loadDirectives_eq, loadDirectives_eq, loadDirectives_eq, htext, lines_append_lineFeed,
      List.map_append, numbered_append, List.length_map, numbered_add, List.map_append,
      List.map_map, List.map_map]
    rfl

end

end EngineTrials
