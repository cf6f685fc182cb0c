import EngineTrials.Proofs.Program.Attribution

/-! The ranges of a program as a tiling of its line numbers. They come one right after the other, but
for the line before the body that is kept free for the call. The numbers are those that the files
take up one by one; the call stands on the line kept free exactly if no two dependencies in a row
meet in a carriage return and a line feed. -/

namespace EngineTrials

open ScriptText

/-- The line after the last one of a range. -/
def LineRange.stop (r : LineRange) : Nat := r.start + r.lines

theorem LineRange.has_iff {r : LineRange} {line : Nat} :
    r.has line = true ↔ r.start ≤ line ∧ line < r.stop := by
  simp [LineRange.has, stop]

/-- Ranges with lines, each right after the one before it, from a line up to another one. -/
def Tile : Nat → List LineRange → Nat → Prop
  | line, [], stop => line = stop
  | line, r :: rest, stop => r.start = line ∧ 0 < r.lines ∧ Tile r.stop rest stop

namespace Tile

variable {line stop : Nat} {ranges : List LineRange}

theorem le (h : Tile line ranges stop) : line ≤ stop := by
  induction ranges generalizing line with
  | nil => exact Nat.le_of_eq h
  | cons r rest ih =>
    obtain ⟨rfl, -, hrest⟩ := h
    exact Nat.le_trans (Nat.le_add_right ..) (ih hrest)

/-- Each line that is covered is in one range. -/
theorem countP_has (h : Tile line ranges stop) (n : Nat) :
    ranges.countP (·.has n) = if line ≤ n ∧ n < stop then 1 else 0 := by
  induction ranges generalizing line with
  | nil =>
    obtain rfl : line = stop := h
    rw [List.countP_nil, if_neg (by omega)]
  | cons r rest ih =>
    obtain ⟨rfl, hlines, hrest⟩ := h
    have hle := hrest.le
    have hlt : r.start < r.stop := Nat.lt_add_of_pos_right hlines
    rw [List.countP_cons, ih hrest]
    by_cases hr : r.start ≤ n ∧ n < r.stop
    · rw [if_pos (LineRange.has_iff.2 hr), if_neg (by omega), if_pos (by omega)]
    · rw [if_neg (mt LineRange.has_iff.1 hr), Nat.add_zero]
      exact if_congr (by omega) rfl rfl

end Tile

/-- The ranges of files that begin at a line tile the lines that the files take up. -/
theorem tile_rangesFrom (line : Nat) (segments : List Segment) :
    Tile line (rangesFrom line (segments.map .file))
      (line + ((segments.map ProgramPart.file).flatMap ProgramPart.lines).length) := by
  induction segments generalizing line with
  | nil => exact rfl
  | cons s rest ih =>
    refine ⟨rfl, lineCount_pos _, ?_⟩
    have hrest := ih (line + lineCount s.source.toList)
    rw [List.map_cons, List.flatMap_cons, List.length_append, ProgramPart.lines, length_lines,
      ← Nat.add_assoc]
    exact hrest

/-- There is a range for each file, in their order. -/
theorem map_path_rangesFrom (line : Nat) (parts : List ProgramPart) :
    (rangesFrom line parts).map LineRange.path =
      (parts.filterMap ProgramPart.segment?).map fun s => s.path.text := by
  induction parts generalizing line with
  | nil => rfl
  | cons part rest ih =>
    cases part with
    | file s =>
      rw [rangesFrom, List.map_cons, ih]
      rfl
    | reinstall body => rw [rangesFrom, ih, List.filterMap_cons_none rfl]

namespace LoadedScript

open Program ProgramPart

/-- Ranges that tile the lines of a script from the first one up to `stop`. A script with a body has
one line that is in none of them, right before the body. -/
inductive TiledBy (script : LoadedScript) : List LineRange → Option Nat → Nat → Prop
  | bodyless {ranges : List LineRange} {stop : Nat} : script.body? = none → Tile 1 ranges stop →
      TiledBy script ranges none stop
  | aroundBody {before after : List LineRange} {free stop : Nat} : script.body? ≠ none →
      before.length = script.dependencies.length → Tile 1 before free →
      Tile (free + 1) after stop → TiledBy script (before ++ after) (some free) stop

theorem TiledBy.countP_has {script : LoadedScript} {ranges : List LineRange} {free : Option Nat}
    {stop : Nat} (h : script.TiledBy ranges free stop) (n : Nat) :
    ranges.countP (·.has n) = if 1 ≤ n ∧ n < stop ∧ free ≠ some n then 1 else 0 := by
  cases h with
  | bodyless _ htile => simp [htile.countP_has]
  | @aroundBody before after free stop _ _ hbefore hafter =>
    have hle := hafter.le
    rw [List.countP_append, hbefore.countP_has, hafter.countP_has]
    by_cases hn : n < free
    · rw [if_neg (c := free + 1 ≤ n ∧ n < stop) (by omega), Nat.add_zero]
      exact if_congr (by simp only [ne_eq, Option.some.injEq]; omega) rfl rfl
    · rw [if_neg (c := 1 ≤ n ∧ n < free) (by omega), Nat.zero_add]
      exact if_congr (by simp only [ne_eq, Option.some.injEq]; omega) rfl rfl

/-- The number of the line that the ranges keep free for the call. -/
def freeLine? (script : LoadedScript) : Option Nat :=
  script.body?.map fun _ =>
    1 + ((script.dependencies.map ProgramPart.file).flatMap ProgramPart.lines).length

theorem exists_tiledBy (script : LoadedScript) :
    ∃ stop, script.TiledBy (assemble script).ranges script.freeLine? stop := by
  rw [assemble_eq]
  obtain h | ⟨dependencies, body, h⟩ := List.eq_nil_or_concat' script.loaded
  · have hbody : script.body? = none := by simp [body?, h]
    rw [parts_of_nil h, freeLine?, hbody]
    exact ⟨_, .bodyless hbody (tile_rangesFrom 1 script.epilogue)⟩
  · have hbody : script.body? = some body := by simp [body?, h]
    have hdeps : script.dependencies = dependencies := by simp [LoadedScript.dependencies, h]
    rw [parts_of_concat h, rangesFrom_append, rangesFrom, freeLine?, hbody, hdeps]
    refine ⟨_, .aroundBody (by simp [hbody]) ?_ (tile_rangesFrom 1 dependencies)
      (tile_rangesFrom _ (body :: script.epilogue))⟩
    have hpaths := congrArg List.length (map_path_rangesFrom 1 (dependencies.map .file))
    rw [hdeps]
    simpa [List.filterMap_map, Function.comp_def, segment?] using hpaths

/-- The texts of files one after the other, each ended. -/
def textOf (segments : List Segment) : List Char :=
  segments.flatMap fun s => (ProgramPart.file s).text

theorem textOf_eq_flatten (segments : List Segment) :
    textOf segments = ((segments.map ProgramPart.file).map text).flatten := by
  rw [textOf, List.map_map]
  rfl

/-- The line of the program with this number is the call for the body, which stands between the
dependencies and the body. -/
structure CallAt (script : LoadedScript) (body : Segment) (line : Nat) : Prop where
  source_eq : (assemble script).source.toList =
    textOf script.dependencies ++
      ((reinstallLine body.source).toList ++ textOf (body :: script.epilogue))
  line_eq : line = (pieces (textOf script.dependencies)).length
  text_eq : (pieces (assemble script).source.toList)[line - 1]? = some (reinstallCall body.source)

/-- The line of the call is apart from the files before it, whatever they end in. -/
theorem pieces_append_reinstall (segments : List Segment) (body : Segment) (after : List Char) :
    pieces (textOf segments ++ ((reinstall body).text ++ after)) =
      (pieces (textOf segments)).dropLast ++ reinstallCall body.source :: pieces after := by
  have hends := (reinstall body).endsInTerminator_text
  have hcall : pieces ((reinstall body).text ++ after) =
      reinstallCall body.source :: pieces after := by
    rw [pieces_append hends not_reinstall_fuses, lines_text, ProgramPart.lines,
      List.singleton_append]
  obtain rfl | ⟨first, last, rfl⟩ := List.eq_nil_or_concat' segments
  · rw [textOf, List.flatMap_nil, List.nil_append, hcall, pieces]
    rfl
  · have hlast : endsInTerminator (textOf (first ++ [last])) = true := by
      have hfile := (ProgramPart.file last).endsInTerminator_text
      rw [textOf, List.flatMap_append, List.flatMap_singleton,
        endsInTerminator_append (ne_nil_of_endsInTerminator hfile)]
      exact hfile
    have hapart : ¬ Fuses (textOf (first ++ [last])) ((reinstall body).text ++ after) := by
      rw [fuses_append (ne_nil_of_endsInTerminator hends)]
      exact not_fuses_reinstall
    rw [pieces_append hlast hapart, hcall, ScriptText.lines, if_pos hlast]

theorem callAt_iff {script : LoadedScript} {body : Segment} (hbody : script.body? = some body)
    {line : Nat} :
    script.CallAt body line ↔ line = (pieces (textOf script.dependencies)).length := by
  refine ⟨CallAt.line_eq, fun hline => ?_⟩
  have hsource : (assemble script).source.toList = textOf script.dependencies ++
      ((reinstallLine body.source).toList ++ textOf (body :: script.epilogue)) := by
    obtain ⟨dependencies, hloaded⟩ := List.getLast?_eq_some_iff.1 hbody
    have hdeps : script.dependencies = dependencies := by
      simp [LoadedScript.dependencies, hloaded]
    rw [source_toList, parts_of_concat hloaded, hdeps, textOf_eq_flatten, textOf_eq_flatten,
      List.map_append, List.flatten_append, List.map_cons, List.flatten_cons]
    rfl
  refine ⟨hsource, hline, ?_⟩
  have hbefore : ((pieces (textOf script.dependencies)).dropLast).length = line - 1 := by
    rw [List.length_dropLast, hline]
  rw [hsource, ← ProgramPart.text, pieces_append_reinstall, ← hbefore,
    List.getElem?_append_right (Nat.le_refl _), Nat.sub_self]
  rfl

/-- The call stands on the line that the ranges keep free exactly if the dependencies have as many
lines together as one by one. -/
theorem freeLine_eq_iff (segments : List Segment) :
    1 + ((segments.map ProgramPart.file).flatMap ProgramPart.lines).length =
        (pieces (textOf segments)).length ↔
      segments.IsChain fun a b => ¬ a.Joins b := by
  have hends : ∀ t ∈ (segments.map ProgramPart.file).map text, endsInTerminator t = true :=
    endsInTerminator_of_mem_map
  rw [← isChain_files_iff, ← map_lines_text, textOf_eq_flatten]
  constructor
  · intro h
    rw [length_pieces] at h
    exact isChain_of_length_le hends (by omega)
  · intro hchain
    rw [pieces_flatten hends hchain, List.length_append, List.length_singleton, Nat.add_comm]

/-- What the ranges of a program are to its lines. -/
structure Tiled (script : LoadedScript) (program : Program) (stop : Nat) : Prop where
  /-- There is a range for each segment, in their order. -/
  paths : program.ranges.map LineRange.path = script.segments.map fun s => s.path.text
  ranges : script.TiledBy program.ranges script.freeLine? stop
  countP_has_le : ∀ line, program.ranges.countP (·.has line) ≤ 1
  segmentAt?_isSome_iff : ∀ line, (program.segmentAt? line).isSome = true ↔
    1 ≤ line ∧ line < stop ∧ script.freeLine? ≠ some line

theorem exists_tiled (script : LoadedScript) : ∃ stop, script.Tiled (assemble script) stop := by
  obtain ⟨stop, htiled⟩ := script.exists_tiledBy
  refine ⟨stop, ?_, htiled, fun line => ?_, fun line => ?_⟩
  · rw [assemble_eq, map_path_rangesFrom, filterMap_parts]
  · rw [htiled.countP_has]
    split_ifs <;> omega
  · rw [segmentAt?, List.find?_isSome, ← List.countP_pos_iff, htiled.countP_has]
    split_ifs with h
    · exact iff_of_true Nat.one_pos h
    · exact iff_of_false (Nat.lt_irrefl 0) h

/-- The ranges of a program tile its line numbers but for one line before the body, and lines are
found in them accordingly. The call for the body is a line of the program, and it is the line that
the ranges leave out exactly if no two dependencies in a row meet in a carriage return and a line
feed. -/
theorem assemble_tiled (script : LoadedScript) :
    (∃ stop, script.Tiled (assemble script) stop) ∧
      (∀ body, script.body? = some body → ∃ line, script.CallAt body line) ∧
      ((∀ body, script.body? = some body →
          ∃ line, script.freeLine? = some line ∧ script.CallAt body line) ↔
        script.dependencies.IsChain fun a b => ¬ a.Joins b) := by
  refine ⟨script.exists_tiled, fun body hbody => ⟨_, (callAt_iff hbody).2 rfl⟩, ?_⟩
  cases hbody : script.body? with
  | none =>
    have hloaded : script.loaded = [] := List.getLast?_eq_none_iff.1 hbody
    simp [LoadedScript.dependencies, hloaded]
  | some body =>
    rw [← freeLine_eq_iff]
    simp only [Option.some.injEq, forall_eq', freeLine?, hbody, Option.map_some, callAt_iff hbody,
      exists_eq_left']

/-- A dependency that ends in a carriage return before one that begins with a line feed. -/
def seamScript : LoadedScript :=
  .ofSegments [⟨⟨"a.js"⟩, "1\r"⟩, ⟨⟨"b.js"⟩, "\n2"⟩, ⟨⟨"c.js"⟩, "3"⟩]

/-- The call is on the third line, which is taken for one of a dependency, while the fourth one is
kept free for it. -/
theorem seamScript_not_callAt_freeLine :
    seamScript.CallAt ⟨⟨"c.js"⟩, "3"⟩ 3 ∧
      ((assemble seamScript).segmentAt? 3).map LineRange.path = some "b.js" ∧
        seamScript.freeLine? = some 4 ∧ ¬ seamScript.CallAt ⟨⟨"c.js"⟩, "3"⟩ 4 := by
  have hbody : seamScript.body? = some ⟨⟨"c.js"⟩, "3"⟩ := rfl
  refine ⟨(callAt_iff hbody).2 (by decide), rfl, by decide, ?_⟩
  rw [callAt_iff hbody]
  decide

end LoadedScript

end EngineTrials
