import EngineTrials.Proofs.Text.Trimming
import EngineTrials.SkipList

/-! Reading skip lists, and asking them. Every text is a skip list: a trimmed line that is neither
empty nor a comment has a pattern in front of its first number sign. `Lays` says how entries are
laid out in lines, with blank lines, comments and white space around; reading gives the entries
back. A path gets its answer from the first entry that selects it. -/

namespace EngineTrials

open Text

/-- An entry that a line can hold. -/
structure SkipEntry.Writable (e : SkipEntry) : Prop where
  pattern_ne : e.glob.pattern ≠ ""
  pattern_trimmed : trimmed e.glob.pattern = e.glob.pattern
  pattern_signless : '#' ∉ e.glob.pattern.toList
  pattern_onLine : '\n' ∉ e.glob.pattern.toList
  reason_ne : e.reason ≠ some ""
  reason_trimmed : ∀ reason, e.reason = some reason → trimmed reason = reason
  reason_onLine : ∀ reason, e.reason = some reason → '\n' ∉ reason.toList

/-- The pattern of an entry, with its reason after a number sign if it has one. -/
def SkipEntry.written (e : SkipEntry) : List Char :=
  match e.reason with
  | none => e.glob.pattern.toList
  | some reason => e.glob.pattern.toList ++ [' ', '#', ' '] ++ reason.toList

namespace SkipList

/-- White space on one line. A carriage return in front of a line feed is part of it. -/
def IsPadding (blank : List Char) : Prop := ∀ c ∈ blank, isWhite c = true ∧ c ≠ '\n'

/-- Entries laid out in lines, one on a line, with lines in between that say nothing. -/
inductive Lays : List SkipEntry → List (List Char) → Prop
  | done : Lays [] []
  | blank {blank : List Char} {entries : List SkipEntry} {rest : List (List Char)} :
      IsPadding blank → Lays entries rest → Lays entries (blank :: rest)
  | comment {before comment : List Char} {entries : List SkipEntry} {rest : List (List Char)} :
      IsPadding before → '\n' ∉ comment → Lays entries rest →
      Lays entries ((before ++ '#' :: comment) :: rest)
  | entry {before after : List Char} {e : SkipEntry} {entries : List SkipEntry}
      {rest : List (List Char)} :
      e.Writable → IsPadding before → IsPadding after → Lays entries rest →
      Lays (e :: entries) ((before ++ e.written ++ after) :: rest)

/-- The text is made of lines in which the entries are laid out. -/
def Writes (text : String) (entries : List SkipEntry) : Prop :=
  ∃ all, Lays entries all ∧ text.toList = List.intercalate ['\n'] all

/-- The entry that a line spells. -/
def readLine? (line : List Char) : Option SkipEntry :=
  (Glob.ofText? (String.ofList (splitReason line).1)).map fun glob =>
    ⟨glob, (splitReason line).2⟩

theorem parse?_eq (text : String) :
    parse? text = ((entryLines text).mapM readLine?).map SkipList.mk := rfl

instance (blank : List Char) : Decidable (IsPadding blank) :=
  List.decidableBAll (fun c => isWhite c = true ∧ c ≠ '\n') blank

theorem isPadding_iff {blank : List Char} :
    IsPadding blank ↔ (∀ c ∈ blank, isWhite c = true) ∧ '\n' ∉ blank := by
  constructor
  · exact fun h => ⟨fun c hc => (h c hc).1, fun hmem => (h _ hmem).2 rfl⟩
  · exact fun ⟨hwhite, hline⟩ c hc => ⟨hwhite c hc, ne_of_mem_of_not_mem hc hline⟩

theorem splitReason_of_not_mem {line : List Char} (h : '#' ∉ line) :
    splitReason line = (line, none) := by
  have hnone : line.dropWhile (· != '#') = [] :=
    List.dropWhile_eq_nil_iff.2 fun c hc => by simpa using ne_of_mem_of_not_mem hc h
  simp only [splitReason, hnone]

theorem splitReason_append_cons {pattern reason : List Char} (h : '#' ∉ pattern) :
    splitReason (pattern ++ '#' :: reason) = (trim pattern, nonempty? (trim reason)) := by
  have hbefore : ∀ c ∈ pattern, (c != '#') = true :=
    fun c hc => by simpa using ne_of_mem_of_not_mem hc h
  simp only [splitReason, List.dropWhile_append_of_pos hbefore,
    List.takeWhile_append_of_pos hbefore, List.dropWhile_cons_of_neg, List.takeWhile_cons_of_neg,
    bne_self_eq_false, Bool.false_eq_true, not_false_eq_true, List.append_nil]

/-- Whether a trimmed line says something. -/
theorem says_iff {line : List Char} : (!line.isEmpty && line.head? != some '#') = true ↔
    ∃ c rest, line = c :: rest ∧ c ≠ '#' := by
  cases line with
  | nil => simp
  | cons c rest => simp

section Totality

variable {c : Char}

/-- The pattern of a line that starts with neither white space nor a number sign is not blank. -/
theorem head?_trim_pattern (rest : List Char) (hwhite : isWhite c = false) (hsign : c ≠ '#') :
    (trim (splitReason (c :: rest)).1).head? = some c := by
  by_cases hreason : '#' ∈ c :: rest
  · obtain ⟨pattern, reason, hsplit, hpattern⟩ := List.eq_append_cons_of_mem hreason
    obtain ⟨more, rfl⟩ : ∃ more, pattern = c :: more := by
      cases pattern with
      | nil => exact absurd (List.cons.inj hsplit).1 hsign
      | cons d more => exact ⟨more, by rw [(List.cons.inj hsplit).1]⟩
    obtain ⟨left, hleft⟩ := List.head?_eq_some_iff.1 (head?_trim_cons more hwhite)
    rw [hsplit, splitReason_append_cons hpattern, hleft]
    exact head?_trim_cons _ hwhite
  · rw [splitReason_of_not_mem hreason]
    exact head?_trim_cons _ hwhite

theorem exists_readLine? {text : String} {line : List Char} (h : line ∈ entryLines text) :
    ∃ e, readLine? line = some e := by
  obtain ⟨hline, hsays⟩ := List.mem_filter.1 h
  obtain ⟨raw, -, htrim⟩ := List.mem_map.1 hline
  obtain ⟨c, rest, rfl, hsign⟩ := says_iff.1 hsays
  have hwhite : isWhite c = false := not_isWhite_of_head?_trim (by rw [htrim, List.head?_cons])
  have hpattern : trimmed (String.ofList (splitReason (c :: rest)).1) ≠ "" := by
    intro hempty
    have hhead := head?_trim_pattern rest hwhite hsign
    rw [show trim (splitReason (c :: rest)).1 = [] by simpa [trimmed] using hempty] at hhead
    simp at hhead
  rw [readLine?, Glob.ofText?_eq_some hpattern]
  exact ⟨_, rfl⟩

theorem exists_mapM_readLine? {all : List (List Char)}
    (h : ∀ line ∈ all, ∃ e, readLine? line = some e) :
    ∃ entries, all.mapM readLine? = some entries := by
  induction all with
  | nil => exact ⟨[], rfl⟩
  | cons line rest ih =>
    obtain ⟨⟨e, he⟩, hrest⟩ := List.forall_mem_cons.1 h
    obtain ⟨entries, hentries⟩ := ih hrest
    exact ⟨e :: entries, by simp [he, hentries]⟩

/-- Every text is a skip list. -/
theorem exists_parse? (text : String) : ∃ list, parse? text = some list := by
  have hentry : ∀ line ∈ entryLines text, ∃ e, readLine? line = some e := fun _ => exists_readLine?
  obtain ⟨entries, hentries⟩ := exists_mapM_readLine? hentry
  exact ⟨⟨entries⟩, by rw [parse?_eq, hentries, Option.map_some]⟩

end Totality

section RoundTrip

variable {e : SkipEntry} {entries : List SkipEntry} {all : List (List Char)}

theorem trim_toList {s : String} (h : trimmed s = s) : trim s.toList = s.toList := by
  simpa [trimmed] using congrArg String.toList h

theorem exists_written_eq_append (e : SkipEntry) :
    ∃ more, e.written = e.glob.pattern.toList ++ more := by
  unfold SkipEntry.written
  split
  · exact ⟨[], (List.append_nil _).symm⟩
  · exact ⟨_, List.append_assoc ..⟩

theorem trim_written (h : e.Writable) : trim e.written = e.written := by
  have hpattern := trim_toList h.pattern_trimmed
  unfold SkipEntry.written
  split
  · exact hpattern
  · rename_i reason hreason
    have hempty : e.glob.pattern.toList ≠ [] := by simpa using h.pattern_ne
    have hnone : reason.toList ≠ [] := fun hnil => h.reason_ne (by simp_all)
    have hends := trim_eq_self_iff.1 (trim_toList (h.reason_trimmed reason hreason))
    rw [trim_eq_self_iff, List.append_assoc, List.head?_append_of_ne_nil _ hempty,
      ← List.append_assoc, List.getLast?_append_of_ne_nil _ hnone]
    exact ⟨(trim_eq_self_iff.1 hpattern).1, hends.2⟩

/-- What is written for an entry says something. -/
theorem says_written (h : e.Writable) : ∃ c rest, e.written = c :: rest ∧ c ≠ '#' := by
  obtain ⟨more, hmore⟩ := exists_written_eq_append e
  obtain ⟨c, rest, hpattern⟩ := List.exists_cons_of_ne_nil (l := e.glob.pattern.toList)
    (by simpa using h.pattern_ne)
  refine ⟨c, rest ++ more, by rw [hmore, hpattern, List.cons_append], ?_⟩
  rintro rfl
  exact h.pattern_signless (hpattern ▸ List.mem_cons_self)

theorem written_onLine (h : e.Writable) : '\n' ∉ e.written := by
  unfold SkipEntry.written
  split
  · exact h.pattern_onLine
  · rename_i reason hreason
    simp [h.pattern_onLine, h.reason_onLine reason hreason]

theorem splitReason_written (h : e.Writable) :
    splitReason e.written = (e.glob.pattern.toList, e.reason) := by
  have hpattern := trim_toList h.pattern_trimmed
  unfold SkipEntry.written
  split
  · rename_i hreason
    rw [splitReason_of_not_mem h.pattern_signless, hreason]
  · rename_i reason hreason
    have hsign : '#' ∉ e.glob.pattern.toList ++ [' '] := by simpa using h.pattern_signless
    have hleft : trim (e.glob.pattern.toList ++ [' ']) = e.glob.pattern.toList := by
      rw [trim_append_white _ (by simp [isWhite]), hpattern]
    have hright : trim ([' '] ++ reason.toList) = reason.toList := by
      rw [trim_white_append _ (by simp [isWhite]), trim_toList (h.reason_trimmed reason hreason)]
    have hne : reason.toList ≠ [] := fun hnil => h.reason_ne (by simp_all)
    have hcut : e.glob.pattern.toList ++ [' ', '#', ' '] ++ reason.toList =
        (e.glob.pattern.toList ++ [' ']) ++ '#' :: ([' '] ++ reason.toList) := by simp
    rw [hcut, splitReason_append_cons hsign, hleft, hright, nonempty?, if_neg hne,
      String.ofList_toList, hreason]

/-- What is written for an entry spells it. -/
theorem readLine?_written (h : e.Writable) : readLine? e.written = some e := by
  have hglob : Glob.ofText? e.glob.pattern = some e.glob := by
    rw [Glob.ofText?_eq_some (by rw [h.pattern_trimmed]; exact h.pattern_ne), h.pattern_trimmed]
  rw [readLine?, splitReason_written h, String.ofList_toList, hglob, Option.map_some]

theorem Lays.onLine (h : Lays entries all) : ∀ line ∈ all, '\n' ∉ line := by
  induction h with
  | done => simp
  | blank hblank _ ih => exact List.forall_mem_cons.2 ⟨(isPadding_iff.1 hblank).2, ih⟩
  | comment hbefore hcomment _ ih =>
    refine List.forall_mem_cons.2 ⟨?_, ih⟩
    simp [(isPadding_iff.1 hbefore).2, hcomment]
  | entry he hbefore hafter _ ih =>
    refine List.forall_mem_cons.2 ⟨?_, ih⟩
    simp [(isPadding_iff.1 hbefore).2, (isPadding_iff.1 hafter).2, written_onLine he]

/-- The lines that say something are those of the entries. -/
theorem Lays.filter_trim (h : Lays entries all) :
    ((all.map trim).filter fun line => !line.isEmpty && line.head? != some '#') =
      entries.map SkipEntry.written := by
  induction h with
  | done => rfl
  | blank hblank _ ih =>
    rw [List.map_cons, trim_eq_nil_iff.2 (isPadding_iff.1 hblank).1]
    exact ih
  | @comment before comment _ _ hbefore _ _ ih =>
    have hhead : (trim ('#' :: comment)).head? = some '#' := head?_trim_cons _ (by decide)
    rw [List.map_cons, trim_white_append _ (isPadding_iff.1 hbefore).1, List.filter_cons, hhead,
      if_neg (by simp), ih]
  | entry he hbefore hafter _ ih =>
    rw [List.map_cons, trim_append_white _ (isPadding_iff.1 hafter).1,
      trim_white_append _ (isPadding_iff.1 hbefore).1, trim_written he, List.filter_cons,
      if_pos (says_iff.2 (says_written he)), ih, List.map_cons]

theorem mapM_readLine?_written (h : Lays entries all) :
    (entries.map SkipEntry.written).mapM readLine? = some entries := by
  induction h with
  | done => rfl
  | blank _ _ ih => exact ih
  | comment _ _ _ ih => exact ih
  | entry he _ _ _ ih => simp [readLine?_written he, ih]

/-- Reading a text gives back the entries that are written in it. -/
theorem parse?_of_writes {text : String} (h : Writes text entries) :
    parse? text = some ⟨entries⟩ := by
  obtain ⟨all, hlays, htext⟩ := h
  have hlines : entryLines text = entries.map SkipEntry.written := by
    by_cases hall : all = []
    · subst hall
      cases hlays
      rw [entryLines, htext]
      rfl
    · rw [entryLines, lines, htext, pieces_intercalate hall hlays.onLine, hlays.filter_trim]
  rw [parse?_eq, hlines, mapM_readLine?_written hlays, Option.map_some]

theorem lays_map_written (h : ∀ e ∈ entries, e.Writable) :
    Lays entries (entries.map SkipEntry.written) := by
  induction entries with
  | nil => exact .done
  | cons e rest ih =>
    obtain ⟨he, hrest⟩ := List.forall_mem_cons.1 h
    have hblank : IsPadding [] := List.forall_mem_nil _
    simpa using Lays.entry he hblank hblank (ih hrest)

/-- Entries that are written one a line are read back. -/
theorem parse?_map_written (h : ∀ e ∈ entries, e.Writable) :
    parse? (String.ofList (List.intercalate ['\n'] (entries.map SkipEntry.written))) =
      some ⟨entries⟩ :=
  parse?_of_writes ⟨_, lays_map_written h, String.toList_ofList⟩

end RoundTrip

section Selection

variable {list : SkipList} {relative : Path}

def Selects (list : SkipList) (relative : Path) : Prop :=
  ∃ e ∈ list.entries, e.glob.selects relative = true

/-- The entry is the first one that selects the path. -/
def First (list : SkipList) (relative : Path) (e : SkipEntry) : Prop :=
  e.glob.selects relative = true ∧ ∃ before after, list.entries = before ++ e :: after ∧
    ∀ b ∈ before, b.glob.selects relative = false

theorem First.selects {e : SkipEntry} (h : list.First relative e) : list.Selects relative := by
  obtain ⟨hselects, before, after, hentries, -⟩ := h
  exact ⟨e, by simp [hentries], hselects⟩

theorem find?_eq_some_iff_first {e : SkipEntry} :
    list.entries.find? (fun e => e.glob.selects relative) = some e ↔ list.First relative e := by
  simp only [List.find?_eq_some_iff_append, First, Bool.not_eq_true']

theorem exists_first_of_selects (h : list.Selects relative) : ∃ e, list.First relative e := by
  obtain ⟨e, he, hselects⟩ := h
  have hfound : (list.entries.find? fun e => e.glob.selects relative).isSome = true :=
    List.find?_isSome.2 ⟨e, he, hselects⟩
  obtain ⟨first, hfirst⟩ := Option.isSome_iff_exists.1 hfound
  exact ⟨first, find?_eq_some_iff_first.1 hfirst⟩

theorem First.unique {a b : SkipEntry} (ha : list.First relative a)
    (hb : list.First relative b) : a = b :=
  Option.some.inj ((find?_eq_some_iff_first.2 ha).symm.trans (find?_eq_some_iff_first.2 hb))

theorem First.reasonFor? {e : SkipEntry} (h : list.First relative e) :
    list.reasonFor? relative = some ("skip list: " ++ e.reason.getD e.glob.pattern) := by
  rw [SkipList.reasonFor?, find?_eq_some_iff_first.2 h, Option.map_some]

theorem reasonFor?_eq_none (h : ¬ list.Selects relative) : list.reasonFor? relative = none := by
  rw [reasonFor?, Option.map_eq_none_iff, List.find?_eq_none]
  intro e he hselects
  exact h ⟨e, he, hselects⟩

/-- The answer for a path is the reason, or else the pattern, of the first entry that selects it. -/
theorem reasonFor?_eq_some_iff {answer : String} : list.reasonFor? relative = some answer ↔
    ∃ e, list.First relative e ∧ answer = "skip list: " ++ e.reason.getD e.glob.pattern := by
  constructor
  · intro h
    obtain ⟨e, hfound, rfl⟩ := Option.map_eq_some_iff.1 h
    exact ⟨e, find?_eq_some_iff_first.1 hfound, rfl⟩
  · rintro ⟨e, hfirst, rfl⟩
    exact hfirst.reasonFor?

theorem reasonFor?_eq_none_iff : list.reasonFor? relative = none ↔ ¬ list.Selects relative := by
  constructor
  · intro hnone hselects
    obtain ⟨e, hfirst⟩ := exists_first_of_selects hselects
    rw [hfirst.reasonFor?] at hnone
    simp at hnone
  · exact reasonFor?_eq_none

end Selection

/-- Every text is a skip list, which answers for a path with the reason, or else the pattern, of the
first entry that selects it, and does not answer if none does. A text in which entries are written
is the skip list of these entries. -/
theorem parse?_answers (text : String) :
    (∃ list, parse? text = some list ∧ ∀ relative,
      (∀ answer, list.reasonFor? relative = some answer ↔
        ∃ e, list.First relative e ∧ answer = "skip list: " ++ e.reason.getD e.glob.pattern) ∧
      (list.reasonFor? relative = none ↔ ¬ list.Selects relative)) ∧
    ∀ entries, Writes text entries → parse? text = some ⟨entries⟩ := by
  obtain ⟨list, hlist⟩ := exists_parse? text
  refine ⟨⟨list, hlist, fun relative => ⟨fun answer => ?_, ?_⟩⟩, fun entries => parse?_of_writes⟩
  · exact reasonFor?_eq_some_iff
  · exact reasonFor?_eq_none_iff

/-- Two entries among comments and blank lines, each line with a carriage return at its end. -/
def returnText : String := "# slow\r\n\r\n\tlib/*.js # why # not \r\na.js\r\n"

def returnEntries : List SkipEntry := [⟨⟨"lib/*.js"⟩, some "why # not"⟩, ⟨⟨"a.js"⟩, none⟩]

theorem writes_returnText : Writes returnText returnEntries := by
  have hreason : SkipEntry.Writable ⟨⟨"lib/*.js"⟩, some "why # not"⟩ := by
    refine ⟨by decide, by decide +kernel, by decide +kernel, by decide +kernel, by decide, ?_, ?_⟩
    · rintro reason ⟨⟩
      decide +kernel
    · rintro reason ⟨⟩
      decide +kernel
  have hplain : SkipEntry.Writable ⟨⟨"a.js"⟩, none⟩ :=
    ⟨by decide, by decide +kernel, by decide +kernel, by decide +kernel, by decide, nofun, nofun⟩
  have hreturn : IsPadding ['\r'] := by decide
  refine ⟨["# slow\r".toList, ['\r'], "\tlib/*.js # why # not \r".toList, "a.js\r".toList, []],
    ?_, by decide +kernel⟩
  have hlast : Lays [⟨⟨"a.js"⟩, none⟩] ["a.js\r".toList, []] :=
    @Lays.entry [] ['\r'] _ _ _ hplain nofun hreturn (.blank nofun .done)
  have hboth : Lays returnEntries ["\tlib/*.js # why # not \r".toList, "a.js\r".toList, []] :=
    @Lays.entry ['\t'] [' ', '\r'] _ _ _ hreason (by decide) (by decide) hlast
  exact @Lays.comment [] " slow\r".toList _ _ nofun (by decide +kernel) (.blank hreturn hboth)

theorem parse?_answers_returnText :
    Writes returnText returnEntries ∧ parse? returnText = some ⟨returnEntries⟩ :=
  ⟨writes_returnText, (parse?_answers returnText).2 returnEntries writes_returnText⟩

end SkipList

end EngineTrials
