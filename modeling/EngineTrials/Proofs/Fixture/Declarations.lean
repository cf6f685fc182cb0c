import EngineTrials.Proofs.Fixture.Directives
import EngineTrials.Proofs.Fixture.EntryPoints

/-! Declarations line by line. The declaration of a function that starts a line is read up to its
parameter list, which it reaches on that line, so what a source declares is what its lines declare,
each line on its own. Entry points are listed in the order of their first lines; primitives keep
their own order. -/

namespace EngineTrials

open Text

/-- What stands between `function` and a name: a star with blanks around it, or blanks, one of them
at least. -/
inductive IsGap : List Char → Prop
  | star {before after : List Char} : AllBlank before → AllBlank after →
      IsGap (before ++ '*' :: after)
  | blanks {gap : List Char} : AllBlank gap → gap ≠ [] → IsGap gap

/-- A character that no name goes on with. -/
def endsName (c : Char) : Bool := isBlank c || c == '(' || c == '\n'

/-- A name that a function may have. What comes after its first character is left open, but for the
characters that end a name: the word characters of all scripts are allowed. -/
structure IsIdentifier (name : List Char) : Prop where
  start : ∃ c rest, name = c :: rest ∧ isNameStart c = true
  goesOn : ∀ c ∈ name, endsName c = false

/-- The declaration of a function, from the blanks before it to its opening parenthesis. -/
inductive IsFunctionHead (name : List Char) : List Char → Prop
  | mk {margin gap space : List Char} : AllBlank margin → IsGap gap → IsIdentifier name →
      AllBlank space →
      IsFunctionHead name (margin ++ "function".toList ++ gap ++ name ++ space ++ ['('])

/-- A line that declares a function: it starts with its declaration, whatever follows. -/
def DeclaresFunction (line name : List Char) : Prop :=
  ∃ head rest, IsFunctionHead name head ∧ line = head ++ rest

/-- The declaration of a function whose name has word characters only. -/
structure IsWordHead (word : Char → Bool) (name head : List Char) : Prop where
  isHead : IsFunctionHead name head
  ofWord : ∀ c ∈ name, word c = true

/-- The name of an entry point: `test` and any more characters of names. -/
structure IsTestName (name : List Char) : Prop where
  start : "test".toList <+: name
  isName : IsName name

/-- The declaration of an entry point, from the blanks before it to the end of its empty parameter
list. The name is as long as it can be, for a blank or a parenthesis comes next. -/
inductive IsEntryHead (name : List Char) : List Char → Prop
  | mk {margin gap space inner : List Char} : AllBlank margin → AllBlank gap → gap ≠ [] →
      IsTestName name → AllBlank space → AllBlank inner →
      IsEntryHead name
        (margin ++ "function".toList ++ gap ++ name ++ space ++ '(' :: inner ++ [')'])

/-- A line that declares an entry point: it starts with its declaration, whatever follows. -/
def DeclaresEntry (line name : List Char) : Prop :=
  ∃ head rest, IsEntryHead name head ∧ line = head ++ rest

section

variable {text line rest name gap : List Char} {c : Char}

theorem after?_function_eq_some_iff : after? "function" (skipBlanks text) = some rest ↔
    ∃ blank, AllBlank blank ∧ text = blank ++ "function".toList ++ rest :=
  after?_skipBlanks_eq_some_iff "function" rfl rfl

/-! Characters of names. -/

theorem isNameChar_of_isNameStart (h : isNameStart c = true) : isNameChar c = true := by
  simp only [isNameStart, isNameChar, Char.isAlphanum, Bool.or_eq_true] at h ⊢
  tauto

theorem ne_of_isNameChar {other : Char} (h : isNameChar c = true)
    (hother : isNameChar other = false) : c ≠ other := by
  rintro rfl
  exact Bool.false_ne_true (hother.symm.trans h)

theorem endsName_of_isNameChar (h : isNameChar c = true) : endsName c = false := by
  simp [endsName, isBlank, ne_of_isNameChar h (show isNameChar ' ' = false by decide),
    ne_of_isNameChar h (show isNameChar '\t' = false by decide),
    ne_of_isNameChar h (show isNameChar '(' = false by decide),
    ne_of_isNameChar h (show isNameChar '\n' = false by decide)]

theorem not_isBlank_of_isNameChar (h : isNameChar c = true) : isBlank c = false := by
  have hends := endsName_of_isNameChar h
  simp only [endsName, Bool.or_eq_false_iff] at hends
  exact hends.1.1

/-- A name is all that characters of its kind go on with, if blanks or a parenthesis end them. -/
theorem takeWhile_name {p : Char → Bool} {space : List Char} (rest : List Char)
    (hname : ∀ c ∈ name, p c = true) (hstop : ∀ c, isBlank c = true ∨ c = '(' → p c = false)
    (hspace : AllBlank space) :
    (name ++ space ++ '(' :: rest).takeWhile p = name ∧
      (name ++ space ++ '(' :: rest).dropWhile p = space ++ '(' :: rest := by
  have hend : (space ++ '(' :: rest).takeWhile p = [] ∧
      (space ++ '(' :: rest).dropWhile p = space ++ '(' :: rest := by
    cases space with
    | nil => simp [hstop '(' (.inr rfl)]
    | cons c more => simp [hstop c (.inl (hspace c List.mem_cons_self))]
  rw [List.append_assoc, List.takeWhile_append_of_pos hname, List.dropWhile_append_of_pos hname,
    hend.1, hend.2, List.append_nil]
  exact ⟨rfl, rfl⟩

theorem takeWhile_isNameChar {space : List Char} (rest : List Char) (hname : IsName name)
    (hspace : AllBlank space) :
    (name ++ space ++ '(' :: rest).takeWhile isNameChar = name ∧
      (name ++ space ++ '(' :: rest).dropWhile isNameChar = space ++ '(' :: rest := by
  refine takeWhile_name rest hname (fun c hc => ?_) hspace
  rw [Bool.eq_false_iff]
  intro hchar
  rcases hc with hblank | rfl
  · exact Bool.false_ne_true ((not_isBlank_of_isNameChar hchar).symm.trans hblank)
  · exact absurd hchar (by decide)

/-! The declaration of a function. -/

theorem IsGap.no_lineFeed (h : IsGap gap) : '\n' ∉ gap := by
  have hfeed : isBlank '\n' = false := by decide
  cases h with
  | star hbefore hafter => simp [hbefore.not_mem hfeed, hafter.not_mem hfeed]
  | blanks hgap _ => exact hgap.not_mem hfeed

theorem exists_gap (h : afterFunction? text = some rest) :
    ∃ gap, IsGap gap ∧ text = gap ++ rest := by
  unfold afterFunction? at h
  have hsplit := takeWhile_append_skipBlanks text
  split at h
  · rename_i after hskip
    obtain rfl := Option.some.inj h
    refine ⟨_, .star (allBlank_takeWhile text) (allBlank_takeWhile after), ?_⟩
    rw [List.append_assoc, List.cons_append, takeWhile_append_skipBlanks, ← hskip, hsplit]
  · split_ifs at h with hlength
    obtain rfl := Option.some.inj h
    refine ⟨_, .blanks (allBlank_takeWhile text) fun hnil => ?_, hsplit.symm⟩
    rw [hnil, List.nil_append] at hsplit
    exact hlength (congrArg List.length hsplit)

theorem afterFunction?_append (hgap : IsGap gap) (hc : isNameStart c = true) :
    afterFunction? (gap ++ c :: rest) = some (c :: rest) := by
  have hchar := isNameChar_of_isNameStart hc
  have hblank := not_isBlank_of_isNameChar hchar
  unfold afterFunction?
  cases hgap with
  | @star before after hbefore hafter =>
    rw [List.append_assoc, List.cons_append, skipBlanks_append hbefore (by decide)]
    exact congrArg some (skipBlanks_append hafter hblank)
  | blanks hgap hne =>
    rw [skipBlanks_append hgap hblank]
    split
    · rename_i after hstar
      exact absurd (List.cons.inj hstar).1 (ne_of_isNameChar hchar (by decide))
    · rw [if_neg (by simpa using Ne.symm hne)]

/-- What is read of a declaration up to its name. -/
theorem DeclaresFunction.exists_reads (h : DeclaresFunction text name) :
    IsIdentifier name ∧ ∃ after space rest, after? "function" (skipBlanks text) = some after ∧
      AllBlank space ∧ afterFunction? after = some (name ++ space ++ '(' :: rest) := by
  obtain ⟨-, rest, @⟨margin, gap, space, hmargin, hgap, hname, hspace⟩, rfl⟩ := h
  obtain ⟨c, more, rfl, hc⟩ := hname.start
  refine ⟨hname, gap ++ c :: (more ++ space ++ '(' :: rest), space, rest,
    after?_function_eq_some_iff.2 ⟨margin, hmargin, by simp⟩, hspace, ?_⟩
  rw [afterFunction?_append hgap hc]
  simp

/-- A line declares one name only, the whole of it. -/
theorem DeclaresFunction.eq {other : List Char} (h : DeclaresFunction line name)
    (hother : DeclaresFunction line other) : name = other := by
  obtain ⟨hname, after, space, rest, hafter, hspace, hread⟩ := h.exists_reads
  obtain ⟨hname', after', space', rest', hafter', hspace', hread'⟩ := hother.exists_reads
  obtain rfl := Option.some.inj (hafter.symm.trans hafter')
  have htext := Option.some.inj (hread.symm.trans hread')
  have hstop : ∀ c, isBlank c = true ∨ c = '(' → (!endsName c) = false := by
    rintro c (hblank | rfl)
    · simp [endsName, hblank]
    · rfl
  have htake := (takeWhile_name rest (by simpa using hname.goesOn) hstop hspace).1
  rw [htext, (takeWhile_name rest' (by simpa using hname'.goesOn) hstop hspace').1] at htake
  exact htake.symm

theorem declaredFunction?_eq_some_iff :
    declaredFunction? text = some name ↔ DeclaresFunction text name ∧ IsName name := by
  constructor
  · intro h
    simp only [declaredFunction?, Option.bind_eq_bind, Option.bind_eq_some_iff] at h
    obtain ⟨after, hafter, found, hfound, h⟩ := h
    obtain ⟨margin, hmargin, rfl⟩ := after?_function_eq_some_iff.1 hafter
    obtain ⟨gap, hgap, rfl⟩ := exists_gap hfound
    cases found with
    | nil => simp at h
    | cons c more =>
      dsimp only at h
      split_ifs at h with hc
      simp only [Option.bind_eq_some_iff, Option.some.injEq] at h
      obtain ⟨rest, hopen, rfl⟩ := h
      obtain ⟨space, hspace, hdrop⟩ := after?_open_eq_some_iff.1 hopen
      have hname : IsName ((c :: more).takeWhile isNameChar) :=
        fun _ hd => List.mem_takeWhile_imp hd
      refine ⟨⟨_, rest, .mk hmargin hgap ⟨?_, fun d hd => endsName_of_isNameChar (hname d hd)⟩
        hspace, ?_⟩, hname⟩
      · rw [List.takeWhile_cons_of_pos (isNameChar_of_isNameStart hc)]
        exact ⟨c, _, rfl, hc⟩
      · have hsplit : (c :: more).takeWhile isNameChar ++ (space ++ '(' :: rest) = c :: more := by
          rw [← hdrop, List.takeWhile_append_dropWhile]
        simp only [List.append_assoc, List.singleton_append, hsplit]
  · rintro ⟨h, hname⟩
    obtain ⟨hidentifier, after, space, rest, hafter, hspace, hread⟩ := h.exists_reads
    obtain ⟨c, more, rfl, hc⟩ := hidentifier.start
    have hopen : after? "(" (skipBlanks (space ++ '(' :: rest)) = some rest :=
      after?_open_eq_some_iff.2 ⟨space, hspace, rfl⟩
    obtain ⟨htake, hdrop⟩ := takeWhile_isNameChar rest hname hspace
    simp only [declaredFunction?, hafter, hread, Option.bind_eq_bind, Option.bind_some,
      List.cons_append] at htake hdrop ⊢
    rw [if_pos hc, hdrop, hopen, htake]
    rfl

theorem IsFunctionHead.no_lineFeed {head : List Char} (h : IsFunctionHead name head) :
    '\n' ∉ head := by
  have hfeed : isBlank '\n' = false := by decide
  have hfunction : '\n' ∉ "function".toList := by decide
  obtain ⟨hmargin, hgap, hname, hspace⟩ := h
  have hline : '\n' ∉ name := fun hmem => Bool.noConfusion (hname.goesOn _ hmem)
  simp [hmargin.not_mem hfeed, hgap.no_lineFeed, hspace.not_mem hfeed, hline]

/-- A declaration is not empty, and it ends on the line that it starts. -/
theorem onOneLine_isWordHead (word : Char → Bool) : OnOneLine (IsWordHead word) := by
  rintro name head ⟨hhead, -⟩
  refine ⟨?_, hhead.no_lineFeed⟩
  cases hhead
  simp

theorem begins_isWordHead_iff {word : Char → Bool} :
    Begins (IsWordHead word) text name ↔
      DeclaresFunction text name ∧ ∀ c ∈ name, word c = true := by
  constructor
  · rintro ⟨head, rest, ⟨hhead, hword⟩, htext⟩
    exact ⟨⟨head, rest, hhead, htext⟩, hword⟩
  · rintro ⟨⟨head, rest, hhead, htext⟩, hword⟩
    exact ⟨head, rest, ⟨hhead, hword⟩, htext⟩

theorem readsHead_declaredFunction? : ReadsHead (IsWordHead isNameChar) declaredFunction? :=
  fun _ _ => declaredFunction?_eq_some_iff.trans begins_isWordHead_iff.symm

/-! The declaration of an entry point. -/

theorem entryPoint?_eq_some_iff : entryPoint? text = some name ↔ DeclaresEntry text name := by
  constructor
  · intro h
    simp only [entryPoint?, Option.bind_eq_bind, Option.bind_eq_some_iff] at h
    obtain ⟨after, hafter, h⟩ := h
    split_ifs at h with hlength
    simp only [Option.bind_eq_some_iff, Option.some.injEq] at h
    obtain ⟨tail, htest, parameters, hopen, rest, hclose, rfl⟩ := h
    obtain ⟨margin, hmargin, rfl⟩ := after?_function_eq_some_iff.1 hafter
    obtain ⟨space, hspace, hdrop⟩ := after?_open_eq_some_iff.1 hopen
    obtain ⟨inner, hinner, rfl⟩ := after?_close_eq_some_iff.1 hclose
    rw [after?, dropLiteral?_eq_some_iff] at htest
    have hgap := takeWhile_append_skipBlanks after
    have hsplit : (skipBlanks after).takeWhile isNameChar ++
        (space ++ '(' :: (inner ++ ')' :: rest)) = skipBlanks after := by
      rw [← hdrop, List.takeWhile_append_dropWhile]
    refine ⟨_, rest, .mk hmargin (allBlank_takeWhile after) (fun hnil => ?_) ⟨?_, ?_⟩ hspace hinner,
      ?_⟩
    · rw [hnil, List.nil_append] at hgap
      exact hlength (congrArg List.length hgap)
    · have hletters : IsName "test".toList := by decide
      rw [htest, List.takeWhile_append_of_pos hletters]
      exact List.prefix_append ..
    · exact fun _ hc => List.mem_takeWhile_imp hc
    · simp only [List.append_assoc, List.cons_append, List.nil_append, hsplit, hgap]
  · rintro ⟨-, rest, @⟨margin, gap, space, inner, hmargin, hgap, hne, hname, hspace, hinner⟩, rfl⟩
    obtain ⟨tail, rfl⟩ := hname.start
    have hafter : after? "function" (skipBlanks (margin ++ "function".toList ++ gap ++
        ("test".toList ++ tail) ++ space ++ '(' :: inner ++ [')'] ++ rest)) =
          some (gap ++ 't' :: ("est".toList ++ tail ++ space ++ '(' :: (inner ++ ')' :: rest))) :=
      after?_function_eq_some_iff.2 ⟨margin, hmargin, by simp⟩
    have hskip : skipBlanks (gap ++ 't' :: ("est".toList ++ tail ++ space ++ '(' ::
        (inner ++ ')' :: rest))) =
          "test".toList ++ tail ++ space ++ '(' :: (inner ++ ')' :: rest) :=
      skipBlanks_append hgap (by decide)
    have htest : after? "test" ("test".toList ++ tail ++ space ++ '(' :: (inner ++ ')' :: rest)) =
        some (tail ++ space ++ '(' :: (inner ++ ')' :: rest)) :=
      dropLiteral?_eq_some_iff.2 (by simp)
    obtain ⟨htake, hdrop⟩ := takeWhile_isNameChar (inner ++ ')' :: rest) hname.isName hspace
    have hopen : after? "(" (skipBlanks (space ++ '(' :: (inner ++ ')' :: rest))) =
        some (inner ++ ')' :: rest) := after?_open_eq_some_iff.2 ⟨space, hspace, rfl⟩
    have hclose : after? ")" (skipBlanks (inner ++ ')' :: rest)) = some rest :=
      after?_close_eq_some_iff.2 ⟨inner, hinner, rfl⟩
    simp only [entryPoint?, hafter, Option.bind_eq_bind, Option.bind_some, hskip]
    rw [if_neg (by simp; have := List.length_pos_iff.2 hne; omega), htest, Option.bind_some, hdrop,
      hopen, Option.bind_some, hclose, Option.bind_some, htake]

theorem IsEntryHead.no_lineFeed {head : List Char} (h : IsEntryHead name head) : '\n' ∉ head := by
  have hfeed : isBlank '\n' = false := by decide
  have hfunction : '\n' ∉ "function".toList := by decide
  obtain ⟨hmargin, hgap, -, hname, hspace, hinner⟩ := h
  have hline : '\n' ∉ name := fun hmem => absurd (hname.isName _ hmem) (by decide)
  simp [hmargin.not_mem hfeed, hgap.not_mem hfeed, hspace.not_mem hfeed, hinner.not_mem hfeed,
    hline]

theorem onOneLine_isEntryHead : OnOneLine IsEntryHead := by
  intro name head hhead
  refine ⟨?_, hhead.no_lineFeed⟩
  cases hhead
  simp

theorem readsHead_entryPoint? : ReadsHead IsEntryHead entryPoint? := fun _ _ =>
  entryPoint?_eq_some_iff

/-! What a source declares. -/

/-- The first line that declares the one entry point comes before all lines that declare the
other. -/
def DeclaredBefore (lines : List (List Char)) (a b : String) : Prop :=
  ∃ before line after, lines = before ++ line :: after ∧ DeclaresEntry line a.toList ∧
    ∀ l ∈ before ++ [line], ¬ DeclaresEntry l b.toList

/-- The names are those of the entry points that lines declare. -/
structure ListsEntryPoints (lines : List (List Char)) (names : List String) : Prop where
  distinct : names.Nodup
  mem_iff : ∀ name, name ∈ names ↔ ∃ line ∈ lines, DeclaresEntry line name.toList
  ordered : names.Pairwise (DeclaredBefore lines)

/-- The names are the primitives that lines declare. -/
structure ListsPrimitives (lines : List (List Char)) (names : List String) : Prop where
  distinct : names.Nodup
  ordered : names.Sublist primitives
  mem_iff : ∀ name, name ∈ names ↔
    name ∈ primitives ∧ ∃ line ∈ lines, DeclaresFunction line name.toList

/-- The name of the entry point that a line declares. -/
def entryName? (line : List Char) : Option String := (entryPoint? line).map String.ofList

theorem entryName?_eq_some_iff {name : String} :
    entryName? line = some name ↔ DeclaresEntry line name.toList := by
  rw [entryName?, Option.map_eq_some_iff, ← entryPoint?_eq_some_iff]
  constructor
  · rintro ⟨letters, hletters, rfl⟩
    rwa [String.toList_ofList]
  · exact fun h => ⟨_, h, String.ofList_toList⟩

theorem entryPoints_eq (source : String) :
    entryPoints source = firstOccurrences ((lines source.toList).filterMap entryName?) := by
  rw [entryPoints, filterMap_lineStarts fun _ _ _ =>
    readsHead_entryPoint?.append_lineFeed onOneLine_isEntryHead, List.map_filterMap]
  rfl

/-- A search of the whole text finds the declarations of which the entry points are the names. -/
theorem exists_finds_entryPoints (source : String) : ∃ found,
    Finds IsEntryHead source.toList found ∧
      entryPoints source = firstOccurrences (found.map fun hit => String.ofList hit.1) := by
  refine ⟨_, finds_numbered readsHead_entryPoint? onOneLine_isEntryHead _, ?_⟩
  have hnames := map_fst_numbered 1 ((lines source.toList).map entryPoint?)
  rw [List.filterMap_map, Function.id_comp] at hnames
  rw [entryPoints_eq]
  refine congrArg firstOccurrences ?_
  calc (lines source.toList).filterMap entryName?
      = ((lines source.toList).filterMap entryPoint?).map String.ofList := List.map_filterMap.symm
    _ = _ := by rw [← hnames, List.map_map]; rfl

theorem listsEntryPoints (source : String) :
    ListsEntryPoints (lines source.toList) (entryPoints source) := by
  rw [entryPoints_eq]
  refine ⟨nodup_firstOccurrences _, fun name => ?_, ?_⟩
  · rw [mem_firstOccurrences, List.mem_filterMap]
    simp only [entryName?_eq_some_iff]
  · refine (pairwise_firstOccurrences _).imp fun {a b} hfirst => ?_
    obtain ⟨front, back, hitems, hb⟩ := hfirst
    obtain ⟨first, rest, hlines, hfront, hrest⟩ := List.filterMap_eq_append_iff.1 hitems
    obtain ⟨idle, line, after, rfl, hidle, hline, -⟩ := List.filterMap_eq_cons_iff.1 hrest
    refine ⟨first ++ idle, line, after, by rw [hlines, List.append_assoc],
      entryName?_eq_some_iff.1 hline, fun l hl hdeclares => hb ?_⟩
    have hname := entryName?_eq_some_iff.2 hdeclares
    simp only [List.mem_append, List.mem_singleton] at hl ⊢
    rcases hl with (hl | hl) | rfl
    · exact .inl (hfront ▸ List.mem_filterMap.2 ⟨l, hl, hname⟩)
    · simp [hidle l hl] at hname
    · exact .inr (Option.some.inj (hname.symm.trans hline))

theorem entryPoints_append_lineFeed (before after : String) :
    entryPoints (before ++ "\n" ++ after) =
      entryPoints before ++ (entryPoints after).filter (· ∉ entryPoints before) := by
  have htext : (before ++ "\n" ++ after).toList = before.toList ++ '\n' :: after.toList := by simp
  rw [entryPoints_eq, entryPoints_eq before, entryPoints_eq after, htext, lines_append_lineFeed,
    List.filterMap_append, firstOccurrences_append]
  refine congrArg (_ ++ ·) (List.filter_congr fun name _ => ?_)
  rw [Bool.eq_iff_iff]
  simp [mem_firstOccurrences]

theorem isName_of_mem_primitives {name : String} (h : name ∈ primitives) : IsName name.toList := by
  have hall : ∀ name ∈ primitives, IsName name.toList := by decide +kernel
  exact hall name h

theorem eq_of_prefix_primitives {name other : String} (h : name ∈ primitives)
    (hother : other ∈ primitives) (hstarts : name.toList <+: other.toList) : name = other := by
  have hall : ∀ name ∈ primitives, ∀ other ∈ primitives, name.toList <+: other.toList →
      name = other := by decide +kernel
  exact hall name h other hother hstarts

theorem mem_declaredPrimitives_iff {source name : String} : name ∈ declaredPrimitives source ↔
    name ∈ primitives ∧ ∃ line ∈ lines source.toList, DeclaresFunction line name.toList := by
  simp only [declaredPrimitives, List.mem_filter, List.contains_iff_mem,
    filterMap_lineStarts fun _ _ _ =>
      readsHead_declaredFunction?.append_lineFeed (onOneLine_isWordHead _),
    List.mem_filterMap, declaredFunction?_eq_some_iff]
  refine and_congr_right fun hname => exists_congr fun line => and_congr_right fun _ => ?_
  exact and_iff_left (isName_of_mem_primitives hname)

theorem listsPrimitives (source : String) :
    ListsPrimitives (lines source.toList) (declaredPrimitives source) :=
  ⟨List.Pairwise.filter _ (by decide +kernel), List.filter_sublist, fun _ =>
    mem_declaredPrimitives_iff⟩

theorem declaredPrimitives_eq_filter (source : String) :
    declaredPrimitives source = primitives.filter (· ∈ declaredPrimitives source) := by
  refine List.filter_congr fun name hname => ?_
  simp [declaredPrimitives, hname]

/-- A search of the whole text finds the declarations of the primitives, whichever characters beyond
those of ASCII the names of other functions may have. -/
theorem exists_finds_primitives {word : Char → Bool}
    (hword : ∀ c, isNameChar c = true → word c = true) (source : String) : ∃ found,
      Finds (IsWordHead word) source.toList found ∧
        declaredPrimitives source = primitives.filter (·.toList ∈ found.map Prod.fst) := by
  have hread : ReadsHead (IsWordHead word) (headOf? (IsWordHead word)) :=
    readsHead_headOf? fun _ _ _ h hother =>
      (begins_isWordHead_iff.1 h).1.eq (begins_isWordHead_iff.1 hother).1
  refine ⟨_, finds_numbered hread (onOneLine_isWordHead word) _, ?_⟩
  rw [declaredPrimitives_eq_filter]
  refine List.filter_congr fun name hname => decide_eq_decide.2 ?_
  have hwords : ∀ c ∈ name.toList, word c = true := fun c hc =>
    hword c (isName_of_mem_primitives hname c hc)
  rw [map_fst_numbered, List.filterMap_map, Function.id_comp, List.mem_filterMap,
    mem_declaredPrimitives_iff]
  simp only [hread _ _, begins_isWordHead_iff, hname, true_and]
  exact exists_congr fun line => and_congr_right fun _ => (and_iff_left hwords).symm

theorem declaredPrimitives_append_lineFeed (before after : String) :
    declaredPrimitives (before ++ "\n" ++ after) = primitives.filter fun name =>
      name ∈ declaredPrimitives before ∨ name ∈ declaredPrimitives after := by
  have htext : (before ++ "\n" ++ after).toList = before.toList ++ '\n' :: after.toList := by simp
  rw [declaredPrimitives_eq_filter]
  refine List.filter_congr fun name hname => decide_eq_decide.2 ?_
  simp only [mem_declaredPrimitives_iff, htext, lines_append_lineFeed, List.mem_append,
    or_and_right, exists_or, hname, true_and]

/-- The entry points and the primitives that a source declares are read off its lines, each line on
its own. So a source of two parts with a line feed between them declares what its parts declare. A
name that starts with that of a primitive and goes on is the name of no primitive. The declarations
are those that a search of the whole text finds, whichever characters beyond those of ASCII count
as word characters. -/
theorem declarations_by_lines (source : String) :
    ListsEntryPoints (lines source.toList) (entryPoints source) ∧
      ListsPrimitives (lines source.toList) (declaredPrimitives source) ∧
      (∀ before after : String,
        entryPoints (before ++ "\n" ++ after) =
            entryPoints before ++ (entryPoints after).filter (· ∉ entryPoints before) ∧
          declaredPrimitives (before ++ "\n" ++ after) = primitives.filter fun name =>
            name ∈ declaredPrimitives before ∨ name ∈ declaredPrimitives after) ∧
      (∀ line, ∀ name ∈ primitives, ∀ more ≠ [], DeclaresFunction line (name.toList ++ more) →
        ∀ other ∈ primitives, ¬ DeclaresFunction line other.toList) ∧
      (∃ found, Finds IsEntryHead source.toList found ∧
        entryPoints source = firstOccurrences (found.map fun hit => String.ofList hit.1)) ∧
      ∀ word : Char → Bool, (∀ c, isNameChar c = true → word c = true) →
        ∃ found, Finds (IsWordHead word) source.toList found ∧
          declaredPrimitives source = primitives.filter (·.toList ∈ found.map Prod.fst) := by
  refine ⟨listsEntryPoints source, listsPrimitives source, fun before after =>
    ⟨entryPoints_append_lineFeed before after, declaredPrimitives_append_lineFeed before after⟩,
    ?_, exists_finds_entryPoints source, fun _ hword => exists_finds_primitives hword source⟩
  intro line name hname more hmore hdeclares other hother hdeclares'
  have hlonger : name.toList ++ more = other.toList := hdeclares.eq hdeclares'
  obtain rfl := eq_of_prefix_primitives hname hother ⟨more, hlonger⟩
  exact hmore (List.append_right_eq_self.1 hlonger)

example : declaredPrimitives "function *load (\nfunction loadé(" = ["load"] := by
  decide +kernel

/-- A letter beyond ASCII makes a name longer as any other does, and a search that takes it for a
word character finds no primitive there. -/
theorem declarations_by_lines_longer :
    DeclaresFunction "function loadé(".toList ("load".toList ++ ['é']) ∧
      (∀ other ∈ primitives, ¬ DeclaresFunction "function loadé(".toList other.toList) ∧
      (∀ c, isNameChar c = true → (isNameChar c || c == 'é') = true) ∧
      ∃ found, Finds (IsWordHead fun c => isNameChar c || c == 'é') "function loadé(".toList found ∧
        primitives.filter (·.toList ∈ found.map Prod.fst) = [] := by
  have hname : IsIdentifier ("load".toList ++ ['é']) :=
    ⟨⟨'l', ['o', 'a', 'd', 'é'], by decide, by decide⟩, by simp [endsName, isBlank]⟩
  have hgap : IsGap [' '] := .blanks (by simp [AllBlank, isBlank]) (by simp)
  have hdeclares : DeclaresFunction "function loadé(".toList ("load".toList ++ ['é']) :=
    ⟨_, [], .mk (List.forall_mem_nil _) hgap hname (List.forall_mem_nil _), by decide⟩
  have hword : ∀ c, isNameChar c = true → (isNameChar c || c == 'é') = true := by
    intro c hc
    simp [hc]
  have hnone : declaredPrimitives "function loadé(" = [] := by decide +kernel
  obtain ⟨-, -, -, hlonger, -, hsearch⟩ := declarations_by_lines "function loadé("
  obtain ⟨found, hfinds, hfound⟩ := hsearch _ hword
  exact ⟨hdeclares, hlonger _ "load" (by decide) ['é'] (by simp) hdeclares, hword, found, hfinds,
    hfound.symm.trans hnone⟩

end

end EngineTrials
