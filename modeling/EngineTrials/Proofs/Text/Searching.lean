import EngineTrials.Proofs.Text.Lines

/-! A search of a whole text for what starts its lines, such as the call of a function or its
declaration. Where such a head ends on the line that it starts, a search from left to right, which
goes on after each head that it has found, finds the heads of the lines, each line on its own. -/

namespace EngineTrials

open Text

variable {α : Type} {Head : α → List Char → Prop}

def StartsLine (before : List Char) : Prop := before = [] ∨ before.getLast? = some '\n'

/-- A text that starts with a head, whatever follows. -/
def Begins (Head : α → List Char → Prop) (text : List Char) (a : α) : Prop :=
  ∃ head rest, Head a head ∧ text = head ++ rest

/-- A search for heads that start a line, in a text of which a part has been passed. It takes the
next head that it comes to, with the number of the line, and goes on after it. -/
inductive Searches (Head : α → List Char → Prop) : List Char → List Char → List (α × Nat) → Prop
  | done {before} : Searches Head before [] []
  | found {before head rest a more} (hstart : StartsLine before) (hhead : Head a head)
    (hmore : Searches Head (before ++ head) rest more) :
    Searches Head before (head ++ rest) ((a, before.count '\n' + 1) :: more)
  | passed {before c rest more} (hnone : StartsLine before → ∀ a, ¬ Begins Head (c :: rest) a)
    (hmore : Searches Head (before ++ [c]) rest more) : Searches Head before (c :: rest) more

/-- What a search of a text finds, whichever way it goes. -/
def Finds (Head : α → List Char → Prop) (text : List Char) (found : List (α × Nat)) : Prop :=
  ∀ other, Searches Head [] text other ↔ other = found

/-- Heads that end on the line that they start. -/
def OnOneLine (Head : α → List Char → Prop) : Prop :=
  ∀ a head, Head a head → head ≠ [] ∧ '\n' ∉ head

/-- The head that a text begins with, if it begins with one, is what is read of it. -/
def ReadsHead (Head : α → List Char → Prop) (read? : List Char → Option α) : Prop :=
  ∀ text a, read? text = some a ↔ Begins Head text a

/-- What is read of lines, each with its number, the first of the lines having a number. -/
def numbered (line : Nat) : List (Option α) → List (α × Nat)
  | [] => []
  | none :: rest => numbered (line + 1) rest
  | some a :: rest => (a, line) :: numbered (line + 1) rest

section

variable {n k : Nat} {said more : List (Option α)} {hit : α × Nat}

theorem numbered_append :
    numbered n (said ++ more) = numbered n said ++ numbered (n + said.length) more := by
  induction said generalizing n with
  | nil => rfl
  | cons a rest ih =>
    have hnext : n + 1 + rest.length = n + (a :: rest).length := by
      rw [List.length_cons]
      omega
    cases a with
    | none => rw [List.cons_append, numbered, ih, hnext, numbered]
    | some a => rw [List.cons_append, numbered, ih, hnext, numbered, List.cons_append]

theorem numbered_add :
    numbered (n + k) said = (numbered n said).map fun hit => (hit.1, hit.2 + k) := by
  induction said generalizing n with
  | nil => rfl
  | cons a rest ih =>
    have hnext : n + k + 1 = n + 1 + k := by omega
    cases a with
    | none => rw [numbered, hnext, ih, numbered]
    | some a => rw [numbered, hnext, ih, numbered, List.map_cons]

theorem mem_numbered_iff :
    hit ∈ numbered n said ↔ ∃ i, said[i]? = some (some hit.1) ∧ hit.2 = n + i := by
  induction said generalizing n with
  | nil => simp [numbered]
  | cons first rest ih =>
    have hrest : hit ∈ numbered (n + 1) rest ↔
        ∃ i, (first :: rest)[i + 1]? = some (some hit.1) ∧ hit.2 = n + (i + 1) := by
      rw [ih]
      refine exists_congr fun i => and_congr_right fun _ => ?_
      omega
    have hfirst : (first = some hit.1 ∧ hit.2 = n) ∨ hit ∈ numbered (n + 1) rest ↔
        ∃ i, (first :: rest)[i]? = some (some hit.1) ∧ hit.2 = n + i := by
      rw [hrest]
      constructor
      · rintro (⟨rfl, hline⟩ | ⟨i, hi⟩)
        · exact ⟨0, rfl, hline⟩
        · exact ⟨i + 1, hi⟩
      · rintro ⟨i, hi⟩
        cases i with
        | zero => exact .inl ⟨Option.some.inj hi.1, hi.2⟩
        | succ i => exact .inr ⟨i, hi⟩
    rw [← hfirst]
    cases first with
    | none => simp [numbered]
    | some a => simp [numbered, Prod.ext_iff, eq_comm]

theorem pairwise_numbered (n : Nat) (said : List (Option α)) :
    (numbered n said).Pairwise fun a b => a.2 < b.2 := by
  induction said generalizing n with
  | nil => exact .nil
  | cons first rest ih =>
    cases first with
    | none => exact ih (n + 1)
    | some a =>
      refine List.pairwise_cons.2 ⟨fun hit hmem => ?_, ih (n + 1)⟩
      obtain ⟨i, -, hline⟩ := mem_numbered_iff.1 hmem
      show n < hit.2
      omega

/-- What lines say comes in the order of the lines, without its numbers. -/
theorem map_fst_numbered (n : Nat) (said : List (Option α)) :
    (numbered n said).map Prod.fst = said.filterMap id := by
  induction said generalizing n with
  | nil => rfl
  | cons first rest ih =>
    cases first with
    | none => exact ih (n + 1)
    | some a => exact congrArg (a :: ·) (ih (n + 1))

end

section

variable {text before line rest : List Char} {found : List (α × Nat)}
  {read? : List Char → Option α}

theorem ReadsHead.append_lineFeed (hread : ReadsHead Head read?) (hline : OnOneLine Head) :
    read? (line ++ '\n' :: rest) = read? line := by
  refine Option.ext fun a => ?_
  rw [hread, hread]
  exact exists_head_append_lineFeed fun head hhead => (hline a head hhead).2

open Classical in
/-- The head that a text begins with, if it begins with one. -/
noncomputable def headOf? (Head : α → List Char → Prop) (text : List Char) : Option α :=
  if h : ∃ a, Begins Head text a then some h.choose else none

theorem readsHead_headOf?
    (hunique : ∀ text a b, Begins Head text a → Begins Head text b → a = b) :
    ReadsHead Head (headOf? Head) := by
  intro text a
  unfold headOf?
  split_ifs with h
  · rw [Option.some.injEq]
    refine ⟨?_, hunique text _ _ h.choose_spec⟩
    rintro rfl
    exact h.choose_spec
  · simpa using fun hbegins => h ⟨a, hbegins⟩

/-- What is left to find after a part of a text: a head at the start of the line, if nothing of the
line has been passed, and those that start the lines after it. -/
theorem Searches.eq (hread : ReadsHead Head read?) (hline : OnOneLine Head)
    (h : Searches Head before text found) :
    (StartsLine before → found =
        numbered (before.count '\n' + 1) ((lineStarts text).map read?)) ∧
      (¬ StartsLine before → found =
        numbered (before.count '\n' + 2) ((suffixesAfter (· == '\n') text).map read?)) := by
  induction h with
  | done =>
    refine ⟨fun _ => ?_, fun _ => rfl⟩
    have hnone : read? [] = none := by
      refine Option.eq_none_iff_forall_ne_some.2 fun a ha => ?_
      obtain ⟨head, rest, hhead, hnil⟩ := (hread [] a).1 ha
      exact (hline a head hhead).1 (List.append_eq_nil_iff.1 hnil.symm).1
    rw [lineStarts, List.map_cons, hnone]
    rfl
  | @found before head rest a more hstart hhead hmore ih =>
    obtain ⟨hne, hfeed⟩ := hline a head hhead
    have hcount : (before ++ head).count '\n' = before.count '\n' := by
      rw [List.count_append, List.count_eq_zero.2 hfeed, Nat.add_zero]
    have hmid : ¬ StartsLine (before ++ head) := by
      rintro (hnil | hlast)
      · exact hne (List.append_eq_nil_iff.1 hnil).2
      · rw [List.getLast?_append_of_ne_nil _ hne] at hlast
        exact hfeed (List.mem_of_getLast? hlast)
    have hsays : read? (head ++ rest) = some a := (hread _ a).2 ⟨head, rest, hhead, rfl⟩
    refine ⟨fun _ => ?_, fun h => absurd hstart h⟩
    rw [ih.2 hmid, hcount, lineStarts, List.map_cons, hsays, numbered,
      suffixesAfter_of_not_mem hfeed]
  | @passed before c rest more hnone hmore ih =>
    have hsays : StartsLine before → read? (c :: rest) = none := fun hstart =>
      Option.eq_none_iff_forall_ne_some.2 fun a ha => hnone hstart a ((hread _ a).1 ha)
    have hlater : more = numbered (before.count '\n' + 2)
        ((suffixesAfter (· == '\n') (c :: rest)).map read?) := by
      by_cases hc : c = '\n'
      · subst hc
        rw [ih.1 (.inr List.getLast?_concat), List.count_append, List.count_singleton_self]
        rfl
      · have hmid : ¬ StartsLine (before ++ [c]) := by
          rintro (hnil | hlast)
          · simp at hnil
          · exact hc (by simpa using hlast)
        have hcount : [c].count '\n' = 0 := List.count_singleton.trans (if_neg (by simpa using hc))
        rw [ih.2 hmid, List.count_append, hcount, suffixesAfter, if_neg (by simpa using hc)]
    refine ⟨fun hstart => ?_, fun _ => hlater⟩
    rw [hlater, lineStarts, List.map_cons, hsays hstart, numbered]

theorem exists_searches (hline : OnOneLine Head) (before text : List Char) :
    ∃ found, Searches Head before text found := by
  induction hlength : text.length using Nat.strongRecOn generalizing before text with
  | _ n ih =>
    cases text with
    | nil => exact ⟨[], .done⟩
    | cons c rest =>
      by_cases hfinds : StartsLine before ∧ ∃ a, Begins Head (c :: rest) a
      · obtain ⟨hstart, a, head, after, hhead, htext⟩ := hfinds
        rw [htext, List.length_append] at hlength
        have hpos := List.length_pos_iff.2 (hline a head hhead).1
        obtain ⟨more, hmore⟩ := ih after.length (by omega) (before ++ head) after rfl
        rw [htext]
        exact ⟨_, .found hstart hhead hmore⟩
      · obtain ⟨more, hmore⟩ := ih rest.length (by rw [← hlength, List.length_cons]; omega)
          (before ++ [c]) rest rfl
        exact ⟨more, .passed (fun hstart a hbegins => hfinds ⟨hstart, a, hbegins⟩) hmore⟩

/-- A search of a text finds the heads of its lines. -/
theorem finds_numbered (hread : ReadsHead Head read?) (hline : OnOneLine Head) (text : List Char) :
    Finds Head text (numbered 1 ((lines text).map read?)) := by
  have heq : ∀ {found}, Searches Head [] text found →
      found = numbered 1 ((lines text).map read?) := by
    intro found h
    rw [(h.eq hread hline).1 (.inl rfl),
      map_lineStarts fun _ _ _ => hread.append_lineFeed hline]
    rfl
  refine fun other => ⟨heq, ?_⟩
  rintro rfl
  obtain ⟨found, h⟩ := exists_searches hline [] text
  rwa [← heq h]

end

end EngineTrials
