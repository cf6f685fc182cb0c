import EngineTrials.Bench.Script
import EngineTrials.Proofs.Fixture.EntryPoints
import EngineTrials.Proofs.Program.Driver
import EngineTrials.Proofs.Text.Replacement

/-! The timing driver of a benchmark script: the template's text up to the final call, and a call
that passes the names and the two counts. The counts are filled in everywhere, so a name that holds
one of their placeholders is passed altered, and every other name is passed as it is. -/

namespace EngineTrials

open Text

/-- The letters of a placeholder are upper case letters and underscores, one of them at least. -/
structure IsPlaceholder (mark : List Char) : Prop where
  letters : (mark.all fun c => c.isUpper || c == '_') = true
  underscore : '_' ∈ mark

namespace IsPlaceholder

variable {mark : List Char}

theorem ne_nil (h : IsPlaceholder mark) : mark ≠ [] :=
  List.ne_nil_of_mem h.underscore

theorem not_mem (h : IsPlaceholder mark) {c : Char} (hc : c.isUpper = false ∧ c ≠ '_') :
    c ∉ mark := by
  intro hmem
  have hletter := List.all_eq_true.1 h.letters c hmem
  rw [hc.1, Bool.false_or, beq_iff_eq] at hletter
  exact hc.2 hletter

theorem not_infix (h : IsPlaceholder mark) {text : List Char} (htext : '_' ∉ text) :
    ¬ mark <:+: text :=
  fun hoccurs => htext (hoccurs.subset h.underscore)

end IsPlaceholder

theorem isPlaceholder_names : IsPlaceholder "__NAMES__".toList := by
  rw [String.toList_ofList]
  exact ⟨by decide, by decide⟩

theorem isPlaceholder_warmup : IsPlaceholder "__WARMUP__".toList := by
  rw [String.toList_ofList]
  exact ⟨by decide, by decide⟩

theorem isPlaceholder_iterations : IsPlaceholder "__ITERATIONS__".toList := by
  rw [String.toList_ofList]
  exact ⟨by decide, by decide⟩

/-! The template and the filling of a placeholder. -/

/-- The end of a driver: the arguments after the first one, up to the end of the call. -/
def driverCall (names warmup measured : String) : String :=
  names ++ ", " ++ warmup ++ ", " ++ measured ++ ");\n"

theorem toList_driver (head names warmup measured : String) :
    (head ++ " " ++ driverCall names warmup measured).toList =
      head.toList ++ ' ' :: (names.toList ++ ',' :: ' ' :: (warmup.toList ++ ',' :: ' ' ::
        (measured.toList ++ [')', ';', '\n']))) := by
  simp [driverCall]

set_option maxRecDepth 20000 in
/-- The template ends in a call with a placeholder for each argument, and no placeholder occurs
before them. -/
theorem exists_templateHead : ∃ head : String,
    benchTemplate = head ++ " " ++ driverCall "__NAMES__" "__WARMUP__" "__ITERATIONS__" ∧
      ¬ "__NAMES__".toList <:+: head.toList ∧ ¬ "__WARMUP__".toList <:+: head.toList ∧
        ¬ "__ITERATIONS__".toList <:+: head.toList := by
  -- the call with the blank before it is 41 characters long
  obtain ⟨text, htext, hsplit, hnames, hwarmup, hmeasured⟩ : ∃ text, benchTemplate.toList = text ∧
      text = text.take (text.length - 41) ++ ' ' :: ("__NAMES__".toList ++ ',' :: ' ' ::
        ("__WARMUP__".toList ++ ',' :: ' ' :: ("__ITERATIONS__".toList ++ [')', ';', '\n']))) ∧
      occursIn "__NAMES__".toList (text.take (text.length - 41)) = false ∧
      occursIn "__WARMUP__".toList (text.take (text.length - 41)) = false ∧
      occursIn "__ITERATIONS__".toList (text.take (text.length - 41)) = false := by
    refine ⟨_, String.toList_ofList, ?_⟩
    rw [String.toList_ofList, String.toList_ofList, String.toList_ofList]
    decide +kernel
  obtain ⟨head, hhead⟩ : ∃ head : String, head.toList = text.take (text.length - 41) :=
    ⟨_, String.toList_ofList⟩
  rw [← hhead] at hsplit hnames hwarmup hmeasured
  refine ⟨head, ?_, not_infix_of_occursIn hnames, not_infix_of_occursIn hwarmup,
    not_infix_of_occursIn hmeasured⟩
  rw [← String.toList_inj, toList_driver, htext]
  exact hsplit

/-- The parts of a driver are filled each on its own. -/
theorem IsPlaceholder.replace_driver {old new head names names' warmup warmup' measured measured' :
    String} (hmark : IsPlaceholder old.toList) (hhead : ¬ old.toList <:+: head.toList)
    (hnames : Replaced old.toList new.toList names.toList names'.toList)
    (hwarmup : Replaced old.toList new.toList warmup.toList warmup'.toList)
    (hmeasured : Replaced old.toList new.toList measured.toList measured'.toList) :
    replace (head ++ " " ++ driverCall names warmup measured) old new =
      head ++ " " ++ driverCall names' warmup' measured' := by
  have hspace : ' ' ∉ old.toList := hmark.not_mem (by decide)
  have hcomma : ',' ∉ old.toList := hmark.not_mem (by decide)
  have hclose : ')' ∉ old.toList := hmark.not_mem (by decide)
  have hend : ¬ old.toList <:+: [';', '\n'] := hmark.not_infix (by decide)
  have hlast := hmeasured.append_cons hmark.ne_nil hclose (.unchanged hend)
  have hcounts := hwarmup.append_cons hmark.ne_nil hcomma (hlast.cons hmark.ne_nil hspace)
  have hcall := hnames.append_cons hmark.ne_nil hcomma (hcounts.cons hmark.ne_nil hspace)
  rw [replace_eq_iff hmark.ne_nil, toList_driver, toList_driver]
  exact (Replaced.unchanged hhead).append_cons hmark.ne_nil hspace hcall

/-! Names. -/

theorem toList_toString (n : Nat) : (toString n).toList = Nat.toDigits 10 n :=
  String.toList_ofList

theorem underscore_not_mem_toString (n : Nat) : '_' ∉ (toString n).toList := by
  intro h
  rw [toList_toString] at h
  exact Bool.noConfusion (Nat.isDigit_of_mem_toDigits (by decide) (by decide) h)

theorem isName_toString (n : Nat) : IsName (toString n).toList := by
  intro c hc
  rw [toList_toString] at hc
  have hdigit := Nat.isDigit_of_mem_toDigits (by decide) (by decide) hc
  simp [isNameChar, Char.isAlphanum, hdigit]

theorem IsPlaceholder.count_lt_toString {mark : List Char} (h : IsPlaceholder mark) (n : Nat) :
    (toString n).toList.count '_' < mark.count '_' := by
  rw [List.count_eq_zero.2 (underscore_not_mem_toString n)]
  exact List.count_pos_iff.2 h.underscore

theorem escaped_of_isNameChar {c : Char} (h : isNameChar c = true) : Json.escaped c = [c] := by
  have hcontrol : ¬ c.toNat < 0x20 := by
    have hcontrols : ∀ n < 0x20, isNameChar (Char.ofNat n) = false := by decide
    intro hlt
    have hfalse := hcontrols c.toNat hlt
    rw [Char.ofNat_toNat] at hfalse
    exact Bool.false_ne_true (hfalse.symm.trans h)
  have hne : ∀ special, isNameChar special = false → c ≠ special := by
    rintro special hspecial rfl
    exact Bool.false_ne_true (hspecial.symm.trans h)
  simp only [Json.escaped, hcontrol, if_false]
  rw [if_neg (hne _ (by decide)), if_neg (hne _ (by decide)), if_neg (hne _ (by decide)),
    if_neg (hne _ (by decide)), if_neg (hne _ (by decide)), if_neg (hne _ (by decide)),
    if_neg (hne _ (by decide))]

theorem quoted_of_isName {name : String} (h : IsName name.toList) :
    Json.quoted (some name) = '"' :: (name.toList ++ ['"']) := by
  have hletters : name.toList.flatMap Json.escaped = name.toList := by
    calc name.toList.flatMap Json.escaped = name.toList.flatMap ([·]) :=
          List.flatMap_congr fun c hc => escaped_of_isNameChar (h c hc)
      _ = name.toList := List.flatMap_singleton' _
  simp [Json.quoted, hletters]

theorem IsName.replace {name old new : String} (hname : IsName name.toList)
    (hold : old.toList ≠ []) (hnew : IsName new.toList) :
    IsName (replace name old new).toList := by
  intro c hc
  exact ((replaced_replace hold name new).mem hc).elim (hname c) (hnew c)

section

variable {old new : String} {names : List String}

theorem IsPlaceholder.replaced_quoted {name : String} (hmark : IsPlaceholder old.toList)
    (hnew : IsName new.toList) (hname : IsName name.toList) {rest rest' : List Char}
    (hrest : Replaced old.toList new.toList rest rest') :
    Replaced old.toList new.toList (Json.quoted (some name) ++ rest)
      (Json.quoted (some (replace name old new)) ++ rest') := by
  have hquote : '"' ∉ old.toList := hmark.not_mem (by decide)
  rw [quoted_of_isName hname, quoted_of_isName (hname.replace hmark.ne_nil hnew)]
  have hletters := (replaced_replace hmark.ne_nil name new).append_cons hmark.ne_nil hquote hrest
  simpa using hletters.cons hmark.ne_nil hquote

theorem IsPlaceholder.replaced_renderItems (hmark : IsPlaceholder old.toList)
    (hnew : IsName new.toList) (hnames : ∀ name ∈ names, IsName name.toList) (depth : Nat) :
    Replaced old.toList new.toList (Json.renderItems .compact depth (names.map .ofString))
      (Json.renderItems .compact depth ((names.map (replace · old new)).map .ofString)) := by
  induction names with
  | nil =>
    have hclose : ¬ old.toList <:+: [']'] := hmark.not_infix (by decide)
    exact .unchanged hclose
  | cons name rest ih =>
    rw [List.forall_mem_cons] at hnames
    have hcomma : ',' ∉ old.toList := hmark.not_mem (by decide)
    exact (hmark.replaced_quoted hnew hnames.1 (ih hnames.2)).cons hmark.ne_nil hcomma

/-- Filling a placeholder in the text of an array of names fills it in each of the names. -/
theorem IsPlaceholder.replaced_ofStrings (hmark : IsPlaceholder old.toList)
    (hnew : IsName new.toList) (hnames : ∀ name ∈ names, IsName name.toList) :
    Replaced old.toList new.toList (Json.ofStrings names).compact.toList
      (Json.ofStrings (names.map (replace · old new))).compact.toList := by
  rw [Json.compact, Json.compact, String.toList_ofList, String.toList_ofList]
  cases names with
  | nil =>
    have hempty : ¬ old.toList <:+: ['[', ']'] := hmark.not_infix (by decide)
    exact .unchanged hempty
  | cons name rest =>
    rw [List.forall_mem_cons] at hnames
    have hopen : '[' ∉ old.toList := hmark.not_mem (by decide)
    have hitems := hmark.replaced_renderItems hnew hnames.2 0
    exact (hmark.replaced_quoted hnew hnames.1 hitems).cons hmark.ne_nil hopen

end

/-! The call. -/

/-- The arguments that stand up to the end of the call: an array of texts and two numbers. -/
def driverArguments? (call : List Char) : Option (List String × Nat × Nat) := do
  let (names, rest) ← Json.value? call.length call
  let (warmup, rest) ← Json.value? call.length (← after? ", " rest)
  let (measured, rest) ← Json.value? call.length (← after? ", " rest)
  if rest = [')', ';', '\n'] then
    some (← Json.list? Json.text? names, ← Json.natural? warmup, ← Json.natural? measured)
  else none

theorem value?_compact {j : Json} (h : j.Spellable) {fuel : Nat} {rest : List Char}
    (hfuel : j.compact.toList.length ≤ fuel) (hrest : Json.EndsNumber rest) :
    Json.value? fuel (j.compact.toList ++ rest) = some (j, rest) := by
  rw [Json.compact, String.toList_ofList] at hfuel ⊢
  exact (h.written Json.Layout.isBlank_compact 0).read hfuel hrest

theorem compact_ofNat (n : Nat) : (Json.ofNat n).compact = toString n := by
  rw [Json.compact, Json.ofNat, Json.render, String.ofList_toList]
  rfl

theorem driverArguments?_driverCall (names : List String) (warmup measured : Nat) :
    driverArguments? (driverCall (Json.ofStrings names).compact (toString warmup)
      (toString measured)).toList = some (names, warmup, measured) := by
  have hcall : (driverCall (Json.ofStrings names).compact (toString warmup)
      (toString measured)).toList = (Json.ofStrings names).compact.toList ++ ',' :: ' ' ::
        ((Json.ofNat warmup).compact.toList ++ ',' :: ' ' ::
          ((Json.ofNat measured).compact.toList ++ [')', ';', '\n'])) := by
    simp [driverCall, compact_ofNat]
  rw [hcall, driverArguments?]
  generalize hfuel : List.length _ = fuel
  simp only [List.length_append, List.length_cons] at hfuel
  have hcomma : ∀ rest, Json.EndsNumber (',' :: rest) := fun rest => .cons (by decide)
  have hclose : ∀ rest, Json.EndsNumber (')' :: rest) := fun rest => .cons (by decide)
  have hseparator (rest : List Char) : after? ", " (',' :: ' ' :: rest) = some rest := by
    rw [after?, dropLiteral?_eq_some_iff]
    rfl
  simp only [Option.bind_eq_bind, Option.bind_some, hseparator,
    value?_compact (Json.spellable_ofStrings names) (by omega : _ ≤ fuel) (hcomma _),
    value?_compact (Json.spellable_ofNat warmup) (by omega : _ ≤ fuel) (hcomma _),
    value?_compact (Json.spellable_ofNat measured) (by omega : _ ≤ fuel) (hclose _),
    Json.list?_ofStrings, Json.natural?_ofNat, if_true]

namespace Iterations

/-- A name as the driver passes it: with the placeholders of the two counts filled. -/
def filled (it : Iterations) (name : String) : String :=
  replace (replace name "__WARMUP__" (toString it.warmup)) "__ITERATIONS__" (toString it.measured)

variable {it : Iterations} {name : String}

/-- A name is passed as it is exactly if it holds neither placeholder. -/
theorem filled_eq_self_iff : it.filled name = name ↔
    contains name "__WARMUP__" = false ∧ contains name "__ITERATIONS__" = false := by
  have hwarmup := isPlaceholder_warmup
  have hmeasured := isPlaceholder_iterations
  constructor
  · -- no filling adds an underscore, and one that finds its placeholder takes some away
    intro hself
    have hfirst := replaced_replace hwarmup.ne_nil name (toString it.warmup)
    have hsecond := replaced_replace hmeasured.ne_nil
      (replace name "__WARMUP__" (toString it.warmup)) (toString it.measured)
    rw [← filled, hself] at hsecond
    have hless := hsecond.count_le (hmeasured.count_lt_toString it.measured).le
    have habsent : contains name "__WARMUP__" = false := by
      rw [← Bool.not_eq_true, contains_iff_infix]
      intro hoccurs
      have hlt := hfirst.count_lt (hwarmup.count_lt_toString it.warmup) hoccurs
      omega
    rw [replace_eq_self hwarmup.ne_nil habsent] at hsecond
    refine ⟨habsent, ?_⟩
    rw [← Bool.not_eq_true, contains_iff_infix]
    intro hoccurs
    exact Nat.lt_irrefl _ (hsecond.count_lt (hmeasured.count_lt_toString it.measured) hoccurs)
  · rintro ⟨hnoWarmup, hnoMeasured⟩
    rw [filled, replace_eq_self hwarmup.ne_nil hnoWarmup,
      replace_eq_self hmeasured.ne_nil hnoMeasured]

end Iterations

/-- The driver is the template's text up to the final call, and a call with the names filled. -/
theorem benchDriver_eq {names : List String} (it : Iterations)
    (hnames : ∀ name ∈ names, IsName name.toList) : ∃ head,
      benchTemplate = head ++ " " ++ driverCall "__NAMES__" "__WARMUP__" "__ITERATIONS__" ∧
        (benchDriver names it).source =
          head ++ " " ++ driverCall (Json.ofStrings (names.map it.filled)).compact
            (toString it.warmup) (toString it.measured) := by
  obtain ⟨head, hhead, hnamesHead, hwarmupHead, hmeasuredHead⟩ := exists_templateHead
  have hnamesWarmup : ¬ "__NAMES__".toList <:+: "__WARMUP__".toList := by
    rw [String.toList_ofList, String.toList_ofList]
    exact not_infix_of_occursIn (by decide)
  have hnamesMeasured : ¬ "__NAMES__".toList <:+: "__ITERATIONS__".toList := by
    rw [String.toList_ofList, String.toList_ofList]
    exact not_infix_of_occursIn (by decide)
  have hwarmupMeasured : ¬ "__WARMUP__".toList <:+: "__ITERATIONS__".toList := by
    rw [String.toList_ofList, String.toList_ofList]
    exact not_infix_of_occursIn (by decide)
  let warmed := names.map (replace · "__WARMUP__" (toString it.warmup))
  have hwarmed : ∀ name ∈ warmed, IsName name.toList := by
    intro name hname
    obtain ⟨given, hgiven, rfl⟩ := List.mem_map.1 hname
    exact (hnames given hgiven).replace isPlaceholder_warmup.ne_nil (isName_toString _)
  have hfilled : names.map it.filled =
      warmed.map (replace · "__ITERATIONS__" (toString it.measured)) := by
    rw [List.map_map]
    rfl
  refine ⟨head, hhead, ?_⟩
  rw [benchDriver, hhead, hfilled]
  dsimp only
  rw [isPlaceholder_names.replace_driver hnamesHead .whole (.unchanged hnamesWarmup)
      (.unchanged hnamesMeasured),
    isPlaceholder_warmup.replace_driver hwarmupHead
      (isPlaceholder_warmup.replaced_ofStrings (isName_toString _) hnames) .whole
      (.unchanged hwarmupMeasured),
    isPlaceholder_iterations.replace_driver hmeasuredHead
      (isPlaceholder_iterations.replaced_ofStrings (isName_toString _) hwarmed)
      (.unchanged (isPlaceholder_iterations.not_infix (underscore_not_mem_toString _))) .whole]

theorem map_filled_eq_self_iff {names : List String} {it : Iterations} :
    names.map it.filled = names ↔ ∀ name ∈ names,
      contains name "__WARMUP__" = false ∧ contains name "__ITERATIONS__" = false := by
  calc names.map it.filled = names
      ↔ names.map it.filled = names.map id := by rw [List.map_id]
    _ ↔ ∀ name ∈ names, it.filled name = name := List.map_inj_left
    _ ↔ _ := forall₂_congr fun _ _ => Iterations.filled_eq_self_iff

/-- The call of the driver passes two counts and names of entry points; the names are those given
exactly if none of them holds the placeholder of a count. -/
theorem benchDriver_call {source : String} {names : List String} (it : Iterations)
    (hnames : ∀ name ∈ names, name ∈ entryPoints source) : ∃ head call,
      benchTemplate = head ++ " " ++ driverCall "__NAMES__" "__WARMUP__" "__ITERATIONS__" ∧
      (benchDriver names it).source = head ++ " " ++ call ∧
      call = driverCall (Json.ofStrings (names.map it.filled)).compact (toString it.warmup)
        (toString it.measured) ∧
      driverArguments? call.toList = some (names.map it.filled, it.warmup, it.measured) ∧
      ((call = driverCall (Json.ofStrings names).compact (toString it.warmup)
          (toString it.measured) ∧
        driverArguments? call.toList = some (names, it.warmup, it.measured)) ↔
        ∀ name ∈ names,
          contains name "__WARMUP__" = false ∧ contains name "__ITERATIONS__" = false) := by
  obtain ⟨head, htemplate, hdriver⟩ :=
    benchDriver_eq it fun name hname => isName_of_mem_entryPoints (hnames name hname)
  have harguments := driverArguments?_driverCall (names.map it.filled) it.warmup it.measured
  refine ⟨head, _, htemplate, hdriver, rfl, harguments, ?_⟩
  rw [← map_filled_eq_self_iff, harguments]
  constructor
  · rintro ⟨-, hsame⟩
    simpa using hsame
  · intro hsame
    rw [hsame]
    exact ⟨rfl, rfl⟩

/-- Names with no placeholder of a count, one of them with that of the names. -/
theorem benchDriver_call_namesMark :
    (∀ name ∈ ["testA", "test__NAMES__"], name ∈
      entryPoints "function testA() \x7b\x7d\nfunction test__NAMES__() \x7b\x7d\n") ∧
    ∃ head call, benchTemplate =
        head ++ " " ++ driverCall "__NAMES__" "__WARMUP__" "__ITERATIONS__" ∧
      (benchDriver ["testA", "test__NAMES__"] {}).source = head ++ " " ++ call ∧
      driverArguments? call.toList = some (["testA", "test__NAMES__"], 100, 1000) := by
  have hnames : ∀ name ∈ ["testA", "test__NAMES__"], name ∈
      entryPoints "function testA() \x7b\x7d\nfunction test__NAMES__() \x7b\x7d\n" := by
    decide +kernel
  obtain ⟨head, call, htemplate, hdriver, -, -, hiff⟩ := benchDriver_call {} hnames
  exact ⟨hnames, head, call, htemplate, hdriver, (hiff.2 (by decide +kernel)).2⟩

/-- A name that holds the placeholder of the warm-up count is passed with the count in its place. -/
theorem benchDriver_alters_name :
    "test__WARMUP__" ∈ entryPoints "function test__WARMUP__() \x7b\x7d\n" ∧
      ∃ head call, benchTemplate =
          head ++ " " ++ driverCall "__NAMES__" "__WARMUP__" "__ITERATIONS__" ∧
        (benchDriver ["test__WARMUP__"] {}).source = head ++ " " ++ call ∧
        driverArguments? call.toList = some (["test100"], 100, 1000) ∧
        driverArguments? call.toList ≠ some (["test__WARMUP__"], 100, 1000) := by
  have hname : "test__WARMUP__" ∈ entryPoints "function test__WARMUP__() \x7b\x7d\n" := by
    decide +kernel
  have hfilled : ["test__WARMUP__"].map (⟨100, 1000⟩ : Iterations).filled = ["test100"] := by
    decide +kernel
  have hnames : ∀ name ∈ ["test__WARMUP__"], IsName name.toList := by
    intro name hmem
    rw [List.mem_singleton.1 hmem]
    exact isName_of_mem_entryPoints hname
  obtain ⟨head, htemplate, hdriver⟩ := benchDriver_eq ⟨100, 1000⟩ hnames
  rw [hfilled] at hdriver
  have harguments := driverArguments?_driverCall ["test100"] 100 1000
  refine ⟨hname, head, _, htemplate, hdriver, harguments, ?_⟩
  rw [harguments]
  decide

end EngineTrials
