import EngineTrials.Proofs.Program.Literal
import Mathlib.Data.List.Chain

/-! Which lines of a program belong to which file. The ranges are counted file by file, while the
lines come from splitting the joined text, so the two agree exactly if no two files in a row meet in
a carriage return and a line feed. -/

namespace EngineTrials

open ScriptText

/-- What a program is made of: files and, right before the body, the call. -/
inductive ProgramPart
  | file (segment : Segment)
  | reinstall (body : Segment)

namespace ProgramPart

/-- What a part adds to the source. -/
def text : ProgramPart → List Char
  | .file segment => (terminated segment.source).toList
  | .reinstall body => (reinstallLine body.source).toList

/-- The lines of a part. -/
def lines : ProgramPart → List (List Char)
  | .file segment => ScriptText.lines segment.source.toList
  | .reinstall body => [reinstallCall body.source]

/-- The file that a part is. -/
def segment? : ProgramPart → Option Segment
  | .file segment => some segment
  | .reinstall _ => none

/-- The lines of a part, each with the file that it belongs to. -/
def owned (part : ProgramPart) : List (Option String × List Char) :=
  part.lines.map fun line => (part.segment?.map fun s => s.path.text, line)

/-- The program and the number of its next line after one more part. -/
def step (state : Program × Nat) : ProgramPart → Program × Nat
  | .file segment => Program.append state segment
  | .reinstall body => Program.appendReinstall state body

end ProgramPart

/-- The ranges of the files among parts that begin at a line. -/
def rangesFrom (line : Nat) : List ProgramPart → List LineRange
  | [] => []
  | .file segment :: rest =>
    ⟨segment.path.text, line, lineCount segment.source.toList⟩ ::
      rangesFrom (line + lineCount segment.source.toList) rest
  | .reinstall _ :: rest => rangesFrom (line + 1) rest

/-- The lines in a range, of all lines. -/
def LineRange.cut (r : LineRange) (all : List (List Char)) : List (List Char) :=
  (all.drop (r.start - 1)).take r.lines

theorem LineRange.has_add (path : String) (line count i : Nat) :
    LineRange.has ⟨path, line, count⟩ (line + i) = decide (i < count) := by
  simp [LineRange.has]

/-- The carriage return at the end of one file and the line feed that comes first in the next are
one terminator. The line of an empty file is a line feed alone. -/
def Segment.Joins (a b : Segment) : Prop :=
  a.source.toList.getLast? = some '\r' ∧
    (b.source.toList = [] ∨ b.source.toList.head? = some '\n')

namespace LoadedScript

/-- The parts of the program of a script. -/
def parts (script : LoadedScript) : List ProgramPart :=
  script.dependencies.map .file ++
    (script.body?.toList.flatMap fun body => [.reinstall body, .file body]) ++
      script.epilogue.map .file

/-- The lines of a script, each with the file that it belongs to. -/
def ownedLines (script : LoadedScript) : List (Option String × List Char) :=
  script.parts.flatMap ProgramPart.owned

/-- No two files in a row meet in a carriage return and a line feed. The call keeps the last
dependency and the body apart. -/
def SeamsApart (script : LoadedScript) : Prop :=
  script.dependencies.IsChain (fun a b => ¬ a.Joins b) ∧
    (script.body?.toList ++ script.epilogue).IsChain fun a b => ¬ a.Joins b

/-- For each segment there is a range, and of all lines it holds those of the segment. -/
def RangesCut (script : LoadedScript) (all : List (List Char)) : Prop :=
  List.Forall₂ (fun (s : Segment) r => r.path = s.path.text ∧ r.cut all = lines s.source.toList)
    script.segments (Program.assemble script).ranges

/-- Each line of the program is attributed to the file that it belongs to, and the empty piece after
the last one to none. -/
def LinesAttributed (script : LoadedScript) : Prop :=
  (pieces (Program.assemble script).source.toList).mapIdx (fun i text =>
      (((Program.assemble script).segmentAt? (i + 1)).map LineRange.path, text)) =
    script.ownedLines ++ [(none, [])]

end LoadedScript

namespace ProgramPart

theorem toList_terminated_of_not {source : String}
    (h : ¬ endsInTerminator source.toList = true) :
    (terminated source).toList = source.toList ++ ['\n'] := by
  rw [terminated, if_neg h, String.toList_append]
  rfl

theorem endsInTerminator_text (part : ProgramPart) : endsInTerminator part.text = true := by
  cases part with
  | file segment =>
    by_cases h : endsInTerminator segment.source.toList = true
    · rw [text, terminated, if_pos h]
      exact h
    · rw [text, toList_terminated_of_not h]
      simp [endsInTerminator, isTerminator]
  | reinstall body =>
    rw [text, reinstallLine_toList]
    simp [endsInTerminator, isTerminator]

theorem lines_text (part : ProgramPart) : ScriptText.lines part.text = part.lines := by
  cases part with
  | file segment =>
    by_cases h : endsInTerminator segment.source.toList = true
    · rw [text, terminated, if_pos h]
      rfl
    · have hclosed := endsInTerminator_text (.file segment)
      rw [text, toList_terminated_of_not h] at hclosed ⊢
      rw [ProgramPart.lines, ScriptText.lines, if_pos hclosed, ScriptText.lines, if_neg h,
        pieces_append_lineFeed (Bool.not_eq_true _ ▸ h), List.dropLast_concat]
  | reinstall body => exact lines_reinstallLine body.source

/-- A file ends in a carriage return where its source does. -/
theorem getLast?_text_eq_return_iff {segment : Segment} :
    (file segment).text.getLast? = some '\r' ↔ segment.source.toList.getLast? = some '\r' := by
  by_cases h : endsInTerminator segment.source.toList = true
  · rw [text, terminated, if_pos h]
  · rw [text, toList_terminated_of_not h, List.getLast?_concat]
    constructor
    · intro hfeed
      simp at hfeed
    · intro hreturn
      simp [endsInTerminator, hreturn, isTerminator] at h

/-- A file begins with a line feed where its source does, or where its source is empty. -/
theorem head?_text_eq_lineFeed_iff {segment : Segment} :
    (file segment).text.head? = some '\n' ↔
      segment.source.toList = [] ∨ segment.source.toList.head? = some '\n' := by
  by_cases h : endsInTerminator segment.source.toList = true
  · rw [text, terminated, if_pos h]
    have hne := ne_nil_of_endsInTerminator h
    exact (or_iff_right hne).symm
  · rw [text, toList_terminated_of_not h]
    cases segment.source.toList with
    | nil => simp
    | cons c rest => simp

/-- Two files fuse exactly if they meet in a carriage return and a line feed. -/
theorem fuses_text_iff {a b : Segment} : Fuses (file a).text (file b).text ↔ a.Joins b :=
  and_congr getLast?_text_eq_return_iff head?_text_eq_lineFeed_iff

theorem not_fuses_reinstall {text : List Char} {body : Segment} :
    ¬ Fuses text (reinstall body).text := by
  rintro ⟨-, hhead⟩
  rw [ProgramPart.text, head?_reinstallLine] at hhead
  simp at hhead

theorem not_reinstall_fuses {body : Segment} {text : List Char} :
    ¬ Fuses (reinstall body).text text := by
  rintro ⟨hlast, -⟩
  rw [ProgramPart.text, reinstallLine_toList, List.getLast?_concat] at hlast
  simp at hlast

/-- The source and the ranges after further parts. -/
theorem foldl_step (parts : List ProgramPart) (program : Program) (line : Nat) :
    parts.foldl step (program, line) =
      (⟨program.source ++ String.ofList (parts.map text).flatten,
        program.ranges ++ rangesFrom line parts⟩, line + (parts.flatMap lines).length) := by
  induction parts generalizing program line with
  | nil => simp [rangesFrom]
  | cons part rest ih =>
    cases part with
    | file segment =>
      rw [List.foldl_cons, step, Program.append, ih]
      simp [rangesFrom, text, lines, length_lines, String.append_assoc, Nat.add_assoc]
    | reinstall body =>
      rw [List.foldl_cons, step, Program.appendReinstall, ih]
      simp [rangesFrom, text, lines, String.append_assoc, Nat.add_assoc, Nat.add_comm 1]

theorem map_lines_text (parts : List ProgramPart) :
    ((parts.map text).map ScriptText.lines).flatten = parts.flatMap lines := by
  rw [List.map_map, List.flatMap_def]
  simp only [Function.comp_def, lines_text]

theorem endsInTerminator_of_mem_map {parts : List ProgramPart} :
    ∀ t ∈ parts.map text, endsInTerminator t = true := by
  intro t ht
  obtain ⟨part, -, rfl⟩ := List.mem_map.1 ht
  exact part.endsInTerminator_text

theorem rangesFrom_append (line : Nat) (first last : List ProgramPart) :
    rangesFrom line (first ++ last) =
      rangesFrom line first ++ rangesFrom (line + (first.flatMap lines).length) last := by
  induction first generalizing line with
  | nil => rfl
  | cons part rest ih =>
    cases part with
    | file segment => simp [rangesFrom, ih, lines, length_lines, Nat.add_assoc]
    | reinstall body => simp [rangesFrom, ih, lines, Nat.add_assoc, Nat.add_comm 1]

/-- The range of a file holds the lines of the file if all lines are those of the parts one after
the other. -/
theorem cut_rangesFrom (before after : List (List Char)) (parts : List ProgramPart) :
    List.Forall₂ (fun (s : Segment) r => r.path = s.path.text ∧
        r.cut (before ++ parts.flatMap lines ++ after) = ScriptText.lines s.source.toList)
      (parts.filterMap segment?) (rangesFrom (before.length + 1) parts) := by
  induction parts generalizing before with
  | nil => exact .nil
  | cons part rest ih =>
    have hrest := ih (before ++ part.lines)
    rw [List.length_append] at hrest
    cases part with
    | file segment =>
      rw [lines, length_lines, Nat.add_right_comm] at hrest
      simp only [List.filterMap_cons, segment?, rangesFrom, List.flatMap_cons, ← List.append_assoc]
      refine .cons ⟨rfl, ?_⟩ hrest
      rw [LineRange.cut, Nat.add_sub_cancel, List.append_assoc, List.append_assoc,
        List.drop_left, ← length_lines]
      exact List.take_left
    | reinstall body =>
      simp only [List.filterMap_cons, segment?, rangesFrom, List.flatMap_cons, ← List.append_assoc]
      exact hrest

theorem le_start_of_mem_rangesFrom {parts : List ProgramPart} {line : Nat} {r : LineRange}
    (h : r ∈ rangesFrom line parts) : line ≤ r.start := by
  induction parts generalizing line with
  | nil => simp [rangesFrom] at h
  | cons part rest ih =>
    cases part with
    | file segment =>
      obtain rfl | h := List.mem_cons.1 h
      · exact Nat.le_refl _
      · exact Nat.le_of_add_right_le (ih h)
    | reinstall body => exact Nat.le_of_succ_le (ih h)

/-- The first range with a line is that of the file whose line it is. -/
theorem find?_rangesFrom (parts : List ProgramPart) (line i : Nat) :
    ((rangesFrom line parts).find? fun r => r.has (line + i)).map LineRange.path =
      (parts.flatMap owned)[i]?.bind Prod.fst := by
  induction parts generalizing line i with
  | nil => rfl
  | cons part rest ih =>
    have hlength : part.owned.length = part.lines.length := List.length_map _
    rw [List.flatMap_cons]
    cases part with
    | file segment =>
      rw [lines, length_lines] at hlength
      rw [rangesFrom, List.find?_cons]
      rw [LineRange.has_add]
      by_cases hi : i < lineCount segment.source.toList
      · have hline : i < (ScriptText.lines segment.source.toList).length := by
          rw [length_lines]
          exact hi
        rw [decide_eq_true hi, List.getElem?_append_left (hlength ▸ hi)]
        simp [owned, lines, segment?, List.getElem?_eq_getElem hline]
      · obtain ⟨j, rfl⟩ := Nat.exists_eq_add_of_le (Nat.le_of_not_lt hi)
        rw [decide_eq_false hi, List.getElem?_append_right (by omega), hlength,
          Nat.add_sub_cancel_left, ← ih, ← Nat.add_assoc]
    | reinstall body =>
      rw [rangesFrom]
      cases i with
      | zero =>
        have hnone : ((rangesFrom (line + 1) rest).find? fun r => r.has (line + 0)) = none := by
          rw [List.find?_eq_none]
          intro r hr
          have hstart := le_start_of_mem_rangesFrom hr
          simp only [LineRange.has, Bool.and_eq_true, decide_eq_true_eq]
          omega
        rw [hnone]
        rfl
      | succ i =>
        have hrest := ih (line + 1) i
        rw [show line + 1 + i = line + (i + 1) by omega] at hrest
        exact hrest

end ProgramPart

namespace LoadedScript

open Program ProgramPart

/-- A script of no files has the epilogue alone. -/
theorem parts_of_nil {script : LoadedScript} (h : script.loaded = []) :
    script.parts = script.epilogue.map .file := by
  simp [parts, dependencies, body?, h]

theorem parts_of_concat {script : LoadedScript} {dependencies : List Segment} {body : Segment}
    (h : script.loaded = dependencies ++ [body]) :
    script.parts =
      dependencies.map .file ++ .reinstall body :: (body :: script.epilogue).map .file := by
  simp [parts, LoadedScript.dependencies, body?, h]

/-- The parts of a script are what its program is assembled from. -/
theorem assemble_eq (script : LoadedScript) :
    assemble script =
      ⟨String.ofList (script.parts.map text).flatten, rangesFrom 1 script.parts⟩ := by
  have hfold : assemble script = (script.parts.foldl step (Program.empty, 1)).1 := by
    rw [parts, List.foldl_append, List.foldl_append, List.foldl_map, List.foldl_map]
    cases hbody : script.body? with
    | none => simp [assemble, hbody, step]
    | some body => simp [assemble, hbody, step]
  rw [hfold, foldl_step]
  simp [Program.empty]

theorem filterMap_parts (script : LoadedScript) :
    script.parts.filterMap segment? = script.segments := by
  have hfiles : ∀ segments : List Segment,
      (segments.map ProgramPart.file).filterMap segment? = segments := by
    intro segments
    rw [List.filterMap_map]
    exact List.filterMap_some
  obtain h | ⟨dependencies, body, h⟩ := List.eq_nil_or_concat' script.loaded
  · rw [parts_of_nil h, hfiles, segments, h, List.nil_append]
  · rw [parts_of_concat h, List.filterMap_append, hfiles, List.filterMap_cons_none rfl, hfiles,
      segments, h, List.append_assoc, List.singleton_append]

/-- A program that has parts ends in a file. -/
theorem parts_eq_nil_or_concat (script : LoadedScript) :
    script.parts = [] ∨ ∃ first segment, script.parts = first ++ [.file segment] := by
  obtain hepilogue | ⟨first, last, hepilogue⟩ := List.eq_nil_or_concat' script.epilogue
  · obtain h | ⟨dependencies, body, h⟩ := List.eq_nil_or_concat' script.loaded
    · exact .inl (by rw [parts_of_nil h, hepilogue, List.map_nil])
    · exact .inr ⟨dependencies.map .file ++ [.reinstall body], body, by
        simp [parts_of_concat h, hepilogue]⟩
  · rw [parts, hepilogue, List.map_append, ← List.append_assoc]
    exact .inr ⟨_, last, rfl⟩

theorem isChain_files_iff {segments : List Segment} :
    ((segments.map ProgramPart.file).map text).IsChain (fun a b => ¬ Fuses a b) ↔
      segments.IsChain fun a b => ¬ a.Joins b := by
  rw [List.map_map, List.isChain_map]
  simp only [Function.comp_def, fuses_text_iff]

/-- The seams of a script are apart exactly if no parts of its program fuse. -/
theorem seamsApart_iff (script : LoadedScript) :
    script.SeamsApart ↔ (script.parts.map text).IsChain fun a b => ¬ Fuses a b := by
  obtain h | ⟨dependencies, body, h⟩ := List.eq_nil_or_concat' script.loaded
  · rw [parts_of_nil h, isChain_files_iff]
    simp [SeamsApart, LoadedScript.dependencies, body?, h]
  · rw [parts_of_concat h, List.map_append, List.map_cons, List.isChain_append, isChain_files_iff,
      List.isChain_cons, isChain_files_iff]
    simp [SeamsApart, LoadedScript.dependencies, body?, h, not_fuses_reinstall,
      not_reinstall_fuses]

theorem source_toList (script : LoadedScript) :
    (assemble script).source.toList = (script.parts.map text).flatten := by
  rw [assemble_eq, String.toList_ofList]

theorem map_snd_ownedLines (script : LoadedScript) :
    script.ownedLines.map Prod.snd = script.parts.flatMap ProgramPart.lines := by
  rw [ownedLines, List.map_flatMap]
  simp [owned, Function.comp_def]

theorem length_ownedLines (script : LoadedScript) :
    script.ownedLines.length = (script.parts.flatMap ProgramPart.lines).length := by
  rw [← map_snd_ownedLines, List.length_map]

/-- The file that a line is attributed to is that of the line's part. -/
theorem segmentAt?_assemble (script : LoadedScript) (i : Nat) :
    ((assemble script).segmentAt? (i + 1)).map LineRange.path =
      script.ownedLines[i]?.bind Prod.fst := by
  rw [segmentAt?, assemble_eq, Nat.add_comm i 1]
  exact find?_rangesFrom script.parts 1 i

theorem rangesCut_of_lines_eq {script : LoadedScript} {all : List (List Char)}
    (after : List (List Char)) (h : all = script.parts.flatMap ProgramPart.lines ++ after) :
    script.RangesCut all := by
  have hcut := cut_rangesFrom [] after script.parts
  rw [filterMap_parts, List.nil_append, ← h] at hcut
  rw [RangesCut, assemble_eq]
  exact hcut

theorem linesAttributed_of_pieces_eq {script : LoadedScript}
    (h : pieces (assemble script).source.toList = script.parts.flatMap ProgramPart.lines ++ [[]]) :
    script.LinesAttributed := by
  have htexts : pieces (assemble script).source.toList =
      (script.ownedLines ++ [(none, [])]).map Prod.snd := by
    rw [h, List.map_append, map_snd_ownedLines]
    rfl
  apply List.ext_getElem?
  intro i
  rw [List.getElem?_mapIdx, htexts, List.getElem?_map, segmentAt?_assemble]
  cases hentry : (script.ownedLines ++ [(none, [])])[i]? with
  | none => rfl
  | some entry =>
    have howner : script.ownedLines[i]?.bind Prod.fst = entry.1 := by
      by_cases hi : i < script.ownedLines.length
      · rw [List.getElem?_append_left hi] at hentry
        rw [hentry]
        rfl
      · rw [List.getElem?_append_right (by omega)] at hentry
        obtain rfl := List.mem_singleton.1 (List.mem_of_getElem? hentry)
        rw [List.getElem?_eq_none (by omega)]
        rfl
    rw [howner]
    rfl

/-- The lines of the parts are no more than those of the program if the ranges hold lines of the
program. -/
theorem length_le_of_rangesCut {script : LoadedScript} {all : List (List Char)}
    (h : script.RangesCut all) : (script.parts.flatMap ProgramPart.lines).length ≤ all.length := by
  obtain hparts | ⟨first, segment, hparts⟩ := script.parts_eq_nil_or_concat
  · rw [hparts]
    exact Nat.zero_le _
  · have hranges : (assemble script).ranges = rangesFrom 1 first ++
        [⟨segment.path.text, 1 + (first.flatMap ProgramPart.lines).length,
          lineCount segment.source.toList⟩] := by
      rw [assemble_eq, hparts]
      exact rangesFrom_append 1 first [.file segment]
    have hsegments : script.segments = first.filterMap segment? ++ [segment] := by
      rw [← filterMap_parts, hparts, List.filterMap_append]
      rfl
    -- the last range alone says how far the lines go
    rw [RangesCut, hranges, hsegments, ← List.forall₂_reverse_iff, List.reverse_concat,
      List.reverse_concat, List.forall₂_cons] at h
    have hcut := congrArg List.length h.1.2
    rw [LineRange.cut, List.length_take, List.length_drop, length_lines] at hcut
    dsimp only at hcut
    have hpos := lineCount_pos segment.source.toList
    rw [hparts, List.flatMap_append, List.length_append, List.flatMap_singleton, ProgramPart.lines,
      length_lines]
    omega

theorem seamsApart_of_rangesCut {script : LoadedScript}
    (h : script.RangesCut (lines (assemble script).source.toList)) : script.SeamsApart := by
  have hle := length_le_of_rangesCut h
  rw [seamsApart_iff]
  obtain hparts | ⟨first, segment, hparts⟩ := script.parts_eq_nil_or_concat
  · rw [hparts]
    exact .nil
  · have hfile := (ProgramPart.file segment).endsInTerminator_text
    have hends : endsInTerminator (script.parts.map text).flatten = true := by
      rw [hparts, List.map_append, List.flatten_append, List.map_singleton, List.flatten_singleton,
        endsInTerminator_append (ne_nil_of_endsInTerminator hfile)]
      exact hfile
    rw [source_toList, length_lines_of_endsInTerminator hends, ← map_lines_text] at hle
    exact isChain_of_length_le endsInTerminator_of_mem_map hle

theorem seamsApart_of_linesAttributed {script : LoadedScript} (h : script.LinesAttributed) :
    script.SeamsApart := by
  have hlength := congrArg List.length h
  rw [List.length_mapIdx, length_pieces, source_toList, List.length_append, List.length_singleton,
    length_ownedLines, ← map_lines_text] at hlength
  rw [seamsApart_iff]
  exact isChain_of_length_le endsInTerminator_of_mem_map (by omega)

/-- The pieces of the program are the lines of its parts and an empty one at the end. -/
theorem pieces_source {script : LoadedScript} (h : script.SeamsApart) :
    pieces (assemble script).source.toList = script.parts.flatMap ProgramPart.lines ++ [[]] := by
  rw [source_toList, ← map_lines_text]
  exact pieces_flatten endsInTerminator_of_mem_map (script.seamsApart_iff.1 h)

/-- The ranges hold the lines of their files, and every line is attributed to its file, exactly if
no two files in a row meet in a carriage return and a line feed. The lines of the program can be
taken with or without the empty piece at its end. -/
theorem attributed_iff_seamsApart (script : LoadedScript) :
    (script.RangesCut (lines (assemble script).source.toList) ↔ script.SeamsApart) ∧
      (script.RangesCut (pieces (assemble script).source.toList) ∧ script.LinesAttributed ↔
        script.SeamsApart) := by
  refine ⟨⟨seamsApart_of_rangesCut, fun h => ?_⟩,
    ⟨fun h => seamsApart_of_linesAttributed h.2, fun h => ?_⟩⟩
  · have hpieces := pieces_source h
    unfold ScriptText.lines
    split
    case isTrue =>
      rw [hpieces, List.dropLast_concat]
      exact rangesCut_of_lines_eq [] (List.append_nil _).symm
    case isFalse => exact rangesCut_of_lines_eq [[]] hpieces
  · have hpieces := pieces_source h
    exact ⟨rangesCut_of_lines_eq [[]] hpieces, linesAttributed_of_pieces_eq hpieces⟩

/-- A file that ends in a carriage return before one that begins with a line feed. -/
def fusedScript : LoadedScript :=
  .ofSegments [⟨⟨"a.js"⟩, "x\r"⟩, ⟨⟨"b.js"⟩, "\ny"⟩, ⟨⟨"c.js"⟩, "z"⟩]

/-- The range of a file holds lines of other files if a terminator before it fuses. -/
theorem fusedScript_not_rangesCut :
    ¬ fusedScript.RangesCut (lines (assemble fusedScript).source.toList) ∧
      ¬ fusedScript.RangesCut (pieces (assemble fusedScript).source.toList) := by
  have hnone : declaredPrimitives "z" = [] := by rfl
  have hcall : reinstallCall "z" = "__harness.reinstall([]);".toList := by
    rw [reinstallCall, hnone]
    decide
  have hsource : (assemble fusedScript).source.toList =
      "x\r\ny\n__harness.reinstall([]);\nz\n".toList := by
    have hparts : fusedScript.parts = [.file ⟨⟨"a.js"⟩, "x\r"⟩, .file ⟨⟨"b.js"⟩, "\ny"⟩,
        .reinstall ⟨⟨"c.js"⟩, "z"⟩, .file ⟨⟨"c.js"⟩, "z"⟩] := rfl
    rw [source_toList, hparts]
    simp only [List.map_cons, List.map_nil, text, reinstallLine_toList, hcall]
    decide
  have hranges : (assemble fusedScript).ranges =
      [⟨"a.js", 1, 1⟩, ⟨"b.js", 2, 2⟩, ⟨"c.js", 5, 1⟩] := by rfl
  rw [RangesCut, RangesCut, hsource, hranges]
  constructor
  · rintro (_ | ⟨_, _ | ⟨⟨_, hcut⟩, _⟩⟩)
    revert hcut
    decide
  · rintro (_ | ⟨_, _ | ⟨⟨_, hcut⟩, _⟩⟩)
    revert hcut
    decide

end LoadedScript

end EngineTrials
