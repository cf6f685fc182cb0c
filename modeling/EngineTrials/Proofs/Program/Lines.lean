import EngineTrials.Program.Lines
import Mathlib.Data.List.Basic

/-! The lines of a text, and how they come together when texts are joined. A joint keeps the lines
of both sides unless a carriage return before it and a line feed after it become one terminator;
then a line is lost. -/

namespace EngineTrials.ScriptText

/-- The lines of a text: the pieces between terminators, without the empty one after a last
terminator. -/
def lines (text : List Char) : List (List Char) :=
  if endsInTerminator text then (pieces text).dropLast else pieces text

/-- The last character of `a` and the first of `b` are one terminator once the texts are joined. -/
def Fuses (a b : List Char) : Prop := a.getLast? = some '\r' ∧ b.head? = some '\n'

theorem not_fuses_singleton_iff {c : Char} {rest : List Char} :
    ¬ Fuses [c] rest ↔ ∀ tail, c = '\r' → rest = '\n' :: tail → False := by
  constructor
  · rintro h tail rfl rfl
    exact h ⟨rfl, rfl⟩
  · rintro h ⟨hc, hrest⟩
    obtain ⟨tail, rfl⟩ := List.head?_eq_some_iff.1 hrest
    exact h tail (by simpa using hc) rfl

theorem fuses_cons {c : Char} {a b : List Char} (ha : a ≠ []) : Fuses (c :: a) b ↔ Fuses a b := by
  unfold Fuses
  rw [List.getLast?_cons_of_ne_nil ha]

theorem fuses_append {a b rest : List Char} (hrest : rest ≠ []) :
    Fuses a (rest ++ b) ↔ Fuses a rest := by
  unfold Fuses
  rw [List.head?_append_of_ne_nil _ hrest]

theorem endsInTerminator_cons {c : Char} {a : List Char} (ha : a ≠ []) :
    endsInTerminator (c :: a) = endsInTerminator a := by
  unfold endsInTerminator
  rw [List.getLast?_cons_of_ne_nil ha]

theorem endsInTerminator_append {a b : List Char} (hb : b ≠ []) :
    endsInTerminator (a ++ b) = endsInTerminator b := by
  unfold endsInTerminator
  rw [List.getLast?_append_of_ne_nil _ hb]

theorem ne_nil_of_endsInTerminator {a : List Char} (h : endsInTerminator a = true) : a ≠ [] := by
  rintro rfl
  simp [endsInTerminator] at h

theorem pieces_ne_nil (text : List Char) : pieces text ≠ [] := by
  fun_cases pieces text <;> simp

theorem pieces_crlf (rest : List Char) : pieces ('\r' :: '\n' :: rest) = [] :: pieces rest := rfl

theorem pieces_terminator {c : Char} {rest : List Char} (hc : isTerminator c = true)
    (h : ¬ Fuses [c] rest) : pieces (c :: rest) = [] :: pieces rest := by
  rw [pieces, if_pos hc]
  exact not_fuses_singleton_iff.1 h

theorem pieces_cons {c : Char} {rest : List Char} (hc : ¬ isTerminator c = true) :
    pieces (c :: rest) = (pieces rest).modifyHead (c :: ·) := by
  rw [pieces, if_neg hc]
  · obtain ⟨first, others, h⟩ := List.exists_cons_of_ne_nil (pieces_ne_nil rest)
    simp [h]
  · rintro _ rfl _
    exact hc rfl

theorem terminatorCount_terminator {c : Char} {rest : List Char} (hc : isTerminator c = true)
    (h : ¬ Fuses [c] rest) : terminatorCount (c :: rest) = terminatorCount rest + 1 := by
  rw [terminatorCount, if_pos hc]
  exact not_fuses_singleton_iff.1 h

theorem terminatorCount_cons {c : Char} {rest : List Char} (hc : ¬ isTerminator c = true) :
    terminatorCount (c :: rest) = terminatorCount rest := by
  rw [terminatorCount, if_neg hc]
  rintro _ rfl _
  exact hc rfl

theorem terminatorCount_pos {text : List Char} (h : endsInTerminator text = true) :
    0 < terminatorCount text := by
  induction text using terminatorCount.induct with
  | case1 => simp [endsInTerminator] at h
  | case2 rest => exact Nat.succ_pos _
  | case3 c rest hcr hc =>
    rw [terminatorCount_terminator hc (not_fuses_singleton_iff.2 hcr)]
    exact Nat.succ_pos _
  | case4 c rest _ hc ih =>
    have hrest : rest ≠ [] := by
      rintro rfl
      simp [endsInTerminator, hc] at h
    rw [endsInTerminator_cons hrest] at h
    rw [terminatorCount_cons hc]
    exact ih h

theorem lineCount_pos (text : List Char) : 0 < lineCount text := by
  unfold lineCount
  split
  case isTrue h => exact terminatorCount_pos h
  case isFalse => exact Nat.succ_pos _

/-- There is one piece more than there are terminators. -/
theorem length_pieces (text : List Char) : (pieces text).length = terminatorCount text + 1 := by
  induction text using terminatorCount.induct with
  | case1 => rfl
  | case2 rest ih => simp [pieces_crlf, terminatorCount, ih]
  | case3 c rest hcr hc ih =>
    have h := not_fuses_singleton_iff.2 hcr
    rw [pieces_terminator hc h, terminatorCount_terminator hc h, List.length_cons, ih]
  | case4 c rest _ hc ih =>
    rw [pieces_cons hc, terminatorCount_cons hc, List.length_modifyHead, ih]

theorem length_lines (text : List Char) : (lines text).length = lineCount text := by
  unfold lines lineCount
  split
  · rw [List.length_dropLast, length_pieces, Nat.add_sub_cancel]
  · rw [length_pieces]

theorem length_lines_of_endsInTerminator {text : List Char} (h : endsInTerminator text = true) :
    (lines text).length = terminatorCount text := by
  rw [length_lines, lineCount, if_pos h]

/-- Joining texts keeps their lines if no terminators fuse. -/
theorem pieces_append {a b : List Char} (ha : endsInTerminator a = true) (h : ¬ Fuses a b) :
    pieces (a ++ b) = lines a ++ pieces b := by
  rw [lines, if_pos ha]
  induction a using terminatorCount.induct with
  | case1 => simp [endsInTerminator] at ha
  | case2 rest ih =>
    by_cases hrest : rest = []
    · subst hrest; rfl
    · rw [fuses_cons (by simp), fuses_cons hrest] at h
      rw [endsInTerminator_cons (by simp), endsInTerminator_cons hrest] at ha
      rw [pieces_crlf, List.dropLast_cons_of_ne_nil (pieces_ne_nil rest), List.cons_append,
        List.cons_append, pieces_crlf, ih ha h, List.cons_append]
  | case3 c rest hcr hc ih =>
    by_cases hrest : rest = []
    · subst hrest
      rw [List.singleton_append, pieces_terminator hc h, pieces_terminator hc (by simp [Fuses])]
      rfl
    · rw [fuses_cons hrest] at h
      rw [endsInTerminator_cons hrest] at ha
      have hcr := not_fuses_singleton_iff.2 hcr
      rw [List.cons_append, pieces_terminator hc (mt (fuses_append hrest).1 hcr),
        pieces_terminator hc hcr, ih ha h, List.dropLast_cons_of_ne_nil (pieces_ne_nil rest),
        List.cons_append]
  | case4 c rest _ hc ih =>
    by_cases hrest : rest = []
    · subst hrest
      simp [endsInTerminator, hc] at ha
    · rw [fuses_cons hrest] at h
      rw [endsInTerminator_cons hrest] at ha
      -- a text that ends in a terminator has two pieces at least, so its first is not its last
      have hlen : 2 ≤ (pieces rest).length := by
        have := terminatorCount_pos ha
        rw [length_pieces]
        omega
      rw [List.cons_append, pieces_cons hc, pieces_cons hc, ih ha h]
      match pieces rest, hlen with
      | first :: second :: others, _ => simp

/-- A line feed at the end of a text terminates its last line. -/
theorem pieces_append_lineFeed {text : List Char} (h : endsInTerminator text = false) :
    pieces (text ++ ['\n']) = pieces text ++ [[]] := by
  induction text using terminatorCount.induct with
  | case1 => rfl
  | case2 rest ih =>
    have hrest : rest ≠ [] := by
      rintro rfl
      simp [endsInTerminator, isTerminator] at h
    rw [endsInTerminator_cons (by simp), endsInTerminator_cons hrest] at h
    rw [List.cons_append, List.cons_append, pieces_crlf, pieces_crlf, ih h, List.cons_append]
  | case3 c rest hcr hc ih =>
    have hrest : rest ≠ [] := by
      rintro rfl
      simp [endsInTerminator, hc] at h
    have hcr := not_fuses_singleton_iff.2 hcr
    rw [endsInTerminator_cons hrest] at h
    rw [List.cons_append, pieces_terminator hc (mt (fuses_append hrest).1 hcr),
      pieces_terminator hc hcr, ih h, List.cons_append]
  | case4 c rest _ hc ih =>
    rw [List.cons_append, pieces_cons hc, pieces_cons hc]
    by_cases hrest : rest = []
    · subst hrest
      rfl
    · rw [endsInTerminator_cons hrest] at h
      rw [ih h]
      obtain ⟨first, others, hp⟩ := List.exists_cons_of_ne_nil (pieces_ne_nil rest)
      simp [hp]

theorem terminatorCount_append {a b : List Char} (ha : endsInTerminator a = true)
    (h : ¬ Fuses a b) : terminatorCount (a ++ b) = terminatorCount a + terminatorCount b := by
  have hlen := congrArg List.length (pieces_append ha h)
  rw [List.length_append, length_pieces, length_pieces,
    length_lines_of_endsInTerminator ha] at hlen
  omega

/-- A terminator is lost where two fuse. -/
theorem terminatorCount_append_of_fuses {a b : List Char} (h : Fuses a b) :
    terminatorCount (a ++ b) + 1 = terminatorCount a + terminatorCount b := by
  induction a using terminatorCount.induct with
  | case1 => simp [Fuses] at h
  | case2 rest ih =>
    have hrest : rest ≠ [] := by
      rintro rfl
      simp [Fuses] at h
    rw [fuses_cons (by simp), fuses_cons hrest] at h
    have := ih h
    simp only [List.cons_append, terminatorCount]
    omega
  | case3 c rest hcr hc ih =>
    by_cases hrest : rest = []
    · subst hrest
      obtain ⟨hlast, hhead⟩ := h
      obtain rfl : c = '\r' := by simpa using hlast
      obtain ⟨tail, rfl⟩ := List.head?_eq_some_iff.1 hhead
      rw [terminatorCount_terminator hc (by simp [Fuses]),
        terminatorCount_terminator (c := '\n') rfl (by simp [Fuses])]
      simp only [List.singleton_append, terminatorCount]
      omega
    · rw [fuses_cons hrest] at h
      have hcr := not_fuses_singleton_iff.2 hcr
      have := ih h
      rw [List.cons_append, terminatorCount_terminator hc (mt (fuses_append hrest).1 hcr),
        terminatorCount_terminator hc hcr]
      omega
  | case4 c rest _ hc ih =>
    have hrest : rest ≠ [] := by
      rintro rfl
      obtain rfl : c = '\r' := by simpa using h.1
      exact hc rfl
    rw [fuses_cons hrest] at h
    rw [List.cons_append, terminatorCount_cons hc, terminatorCount_cons hc]
    exact ih h

/-- A text without terminators and a line feed are one line. -/
theorem lines_append_lineFeed {text : List Char} (h : ∀ c ∈ text, ¬ isTerminator c = true) :
    lines (text ++ ['\n']) = [text] := by
  have hopen : endsInTerminator text = false := by
    unfold endsInTerminator
    cases hlast : text.getLast? with
    | none => rfl
    | some c => simpa using h c (List.mem_of_getLast? hlast)
  have hclosed : endsInTerminator (text ++ ['\n']) = true := by
    simp [endsInTerminator, isTerminator]
  rw [lines, if_pos hclosed, pieces_append_lineFeed hopen, List.dropLast_concat]
  clear hopen hclosed
  induction text with
  | nil => rfl
  | cons c rest ih =>
    rw [pieces_cons (h c List.mem_cons_self), ih fun d hd => h d (List.mem_cons_of_mem _ hd)]
    rfl

section Flatten

variable {texts : List (List Char)}

/-- A text fuses with what follows it exactly if it fuses with the next text. -/
theorem isChain_cons_iff {text : List Char} (h : ∀ t ∈ texts, endsInTerminator t = true) :
    (text :: texts).IsChain (fun a b => ¬ Fuses a b) ↔
      ¬ Fuses text texts.flatten ∧ texts.IsChain fun a b => ¬ Fuses a b := by
  cases texts with
  | nil => simp [Fuses]
  | cons next rest =>
    have hnext := ne_nil_of_endsInTerminator (h next List.mem_cons_self)
    rw [List.isChain_cons_cons, List.flatten_cons, fuses_append hnext]

/-- Joined texts have the lines of the texts one after the other if no terminators fuse. -/
theorem pieces_flatten (h : ∀ t ∈ texts, endsInTerminator t = true)
    (hchain : texts.IsChain fun a b => ¬ Fuses a b) :
    pieces texts.flatten = (texts.map lines).flatten ++ [[]] := by
  induction texts with
  | nil => rfl
  | cons text rest ih =>
    have hrest := fun t ht => h t (List.mem_cons_of_mem _ ht)
    obtain ⟨hjoint, hchain⟩ := (isChain_cons_iff hrest).1 hchain
    rw [List.flatten_cons, pieces_append (h text List.mem_cons_self) hjoint, ih hrest hchain,
      List.map_cons, List.flatten_cons, List.append_assoc]

theorem terminatorCount_flatten_le (h : ∀ t ∈ texts, endsInTerminator t = true) :
    terminatorCount texts.flatten ≤ (texts.map lines).flatten.length := by
  induction texts with
  | nil => exact Nat.le_refl _
  | cons text rest ih =>
    have htext := h text List.mem_cons_self
    have hrest := ih fun t ht => h t (List.mem_cons_of_mem _ ht)
    rw [List.flatten_cons, List.map_cons, List.flatten_cons, List.length_append,
      length_lines_of_endsInTerminator htext]
    by_cases hjoint : Fuses text rest.flatten
    · have := terminatorCount_append_of_fuses hjoint
      omega
    · have := terminatorCount_append htext hjoint
      omega

/-- Joined texts have a terminator for each line of the texts only if none of them fuse. -/
theorem isChain_of_length_le (h : ∀ t ∈ texts, endsInTerminator t = true)
    (hcount : (texts.map lines).flatten.length ≤ terminatorCount texts.flatten) :
    texts.IsChain fun a b => ¬ Fuses a b := by
  induction texts with
  | nil => exact .nil
  | cons text rest ih =>
    have htext := h text List.mem_cons_self
    have hrest := fun t ht => h t (List.mem_cons_of_mem _ ht)
    have hle := terminatorCount_flatten_le hrest
    rw [List.flatten_cons, List.map_cons, List.flatten_cons, List.length_append,
      length_lines_of_endsInTerminator htext] at hcount
    by_cases hjoint : Fuses text rest.flatten
    · have := terminatorCount_append_of_fuses hjoint
      omega
    · have := terminatorCount_append htext hjoint
      exact (isChain_cons_iff hrest).2 ⟨hjoint, ih hrest (by omega)⟩

end Flatten

end EngineTrials.ScriptText
