import EngineTrials.Fixture.Expectation
import EngineTrials.Proofs.Fixture.Directives
import EngineTrials.Proofs.Text.Replacement
import EngineTrials.Proofs.Text.Trimming

/-! The expectation of a source, read from its end. The sentinel is searched for at every place
where a statement may start, but there is one place only at which it can stand: reading backward
over white space, a semicolon, the quoted sentinel and blanks comes to it. White space at the end of
a source therefore makes no difference. -/

namespace EngineTrials

open Text

/-- A text after which a statement may start. -/
def StartsStatement (before : List Char) : Prop :=
  ∀ c, before.getLast? = some c → endsStatement c = true

instance (before : List Char) : Decidable (StartsStatement before) :=
  match h : before.getLast? with
  | none => .isTrue (by simp [StartsStatement, h])
  | some c => decidable_of_iff (endsStatement c = true) (by simp [StartsStatement, h])

/-- The sentinel in double or in single quotes. -/
def IsQuotedSentinel (quoted : List Char) : Prop :=
  quoted = "\"success\"".toList ∨ quoted = "'success'".toList

/-- The sentinel as the last statement of a source: it stands where a statement may start, blanks
aside, and no more follows than blanks, one semicolon and white space. -/
inductive EndsInSentinel : List Char → Prop
  | mk {before margin quoted gap semicolon white : List Char} : StartsStatement before →
      AllBlank margin → IsQuotedSentinel quoted → AllBlank gap →
      (semicolon = [] ∨ semicolon = [';']) → (∀ c ∈ white, isWhite c = true) →
      EndsInSentinel (before ++ margin ++ quoted ++ gap ++ semicolon ++ white)

/-- What stands before a literal at the end of a text. -/
def before? (literal : String) (text : List Char) : Option (List Char) :=
  (dropLiteral? literal.toList.reverse text.reverse).map List.reverse

/-- A text without the semicolon at its end, if there is one, and the blanks before it. -/
def dropSemicolon (text : List Char) : List Char :=
  if text.getLast? = some ';' then dropEndWhile isBlank text.dropLast else text

/-- What stands before the sentinel that a source ends in, read from the end: white space is
dropped, then a semicolon, then the quoted sentinel, and then blanks. -/
def beforeSentinel? (source : List Char) : Option (List Char) :=
  let statement := dropSemicolon (dropEndWhile isWhite source)
  ((before? "\"success\"" statement).or (before? "'success'" statement)).map (dropEndWhile isBlank)

/-- Reading a source from its end comes to the sentinel, and to where its statement may start. -/
def ReadsBack (source : List Char) : Prop :=
  ∃ before ∈ beforeSentinel? source, StartsStatement before

instance (source : List Char) : Decidable (ReadsBack source) :=
  match h : beforeSentinel? source with
  | none => .isFalse (by simp [ReadsBack, h])
  | some before => decidable_of_iff (StartsStatement before) (by simp [ReadsBack, h])

section

variable {text source rest front quoted : List Char}

/-! Searching for the sentinel. -/

theorem afterSentinel?_eq_some_iff : afterSentinel? text = some rest ↔
    ∃ quoted, IsQuotedSentinel quoted ∧ text = quoted ++ rest := by
  rw [afterSentinel?, Option.or_eq_some_iff]
  simp only [after?, dropLiteral?_eq_some_iff, IsQuotedSentinel, or_and_right, exists_or,
    exists_eq_left]
  constructor
  · rintro (h | ⟨-, h⟩)
    · exact .inl h
    · exact .inr h
  · rintro (h | h)
    · exact .inl h
    · -- the two kinds of quotes keep the two sentinels apart
      refine .inr ⟨?_, h⟩
      rw [h]
      rfl

theorem IsQuotedSentinel.exists_cons (h : IsQuotedSentinel quoted) :
    ∃ c rest, quoted = c :: rest ∧ isBlank c = false := by
  rcases h with rfl | rfl
  · exact ⟨'"', "success\"".toList, by decide, by decide⟩
  · exact ⟨'\'', "success'".toList, by decide, by decide⟩

theorem IsQuotedSentinel.exists_concat (h : IsQuotedSentinel quoted) :
    ∃ front c, quoted = front ++ [c] ∧ isWhite c = false ∧ c ≠ ';' := by
  rcases h with rfl | rfl
  · exact ⟨"\"success".toList, '"', by decide, by decide, by decide⟩
  · exact ⟨"'success".toList, '\'', by decide, by decide, by decide⟩

theorem isSentinelStatement_iff : isSentinelStatement text = true ↔
    ∃ margin quoted gap semicolon white, AllBlank margin ∧ IsQuotedSentinel quoted ∧ AllBlank gap ∧
      (semicolon = [] ∨ semicolon = [';']) ∧ (∀ c ∈ white, isWhite c = true) ∧
      text = margin ++ quoted ++ gap ++ semicolon ++ white := by
  constructor
  · intro h
    unfold isSentinelStatement at h
    cases hafter : afterSentinel? (skipBlanks text) with
    | none => simp [hafter] at h
    | some after =>
      obtain ⟨quoted, hquoted, hskip⟩ := afterSentinel?_eq_some_iff.1 hafter
      have htext := takeWhile_append_skipBlanks text
      have hgap := takeWhile_append_skipBlanks after
      rw [hafter, Option.map_some] at h
      rw [hskip] at htext
      split at h
      · simp at h
      · rename_i white hwhite
        obtain hwhite := Option.some.inj hwhite
        refine ⟨_, quoted, _, [';'], white, allBlank_takeWhile text, hquoted,
          allBlank_takeWhile after, .inr rfl, List.all_eq_true.1 h, ?_⟩
        rw [List.append_assoc, List.append_assoc, List.singleton_append, ← hwhite,
          List.append_assoc, hgap, htext]
      · rename_i white _ hwhite
        obtain hwhite := Option.some.inj hwhite
        refine ⟨_, quoted, _, [], white, allBlank_takeWhile text, hquoted,
          allBlank_takeWhile after, .inl rfl, List.all_eq_true.1 h, ?_⟩
        rw [List.append_nil, List.append_assoc, ← hwhite, List.append_assoc, hgap, htext]
  · rintro ⟨margin, quoted, gap, semicolon, white, hmargin, hquoted, hgap, hsemicolon, hwhite, rfl⟩
    obtain ⟨c, more, hcons, hc⟩ := hquoted.exists_cons
    have hskip : skipBlanks (margin ++ quoted ++ gap ++ semicolon ++ white) =
        quoted ++ (gap ++ semicolon ++ white) := by
      simp only [hcons, List.append_assoc, List.cons_append]
      exact skipBlanks_append hmargin hc
    have hafter : afterSentinel? (quoted ++ (gap ++ semicolon ++ white)) =
        some (gap ++ semicolon ++ white) := afterSentinel?_eq_some_iff.2 ⟨quoted, hquoted, rfl⟩
    rw [isSentinelStatement, hskip, hafter, Option.map_some]
    rcases hsemicolon with rfl | rfl
    · have hrest : ∀ c ∈ skipBlanks (gap ++ [] ++ white), isWhite c = true := by
        intro c hmem
        have hall := (List.dropWhile_suffix isBlank).subset hmem
        simp only [List.append_nil, List.mem_append] at hall
        exact hall.elim (fun hc => isWhite_of_isBlank (hgap c hc)) (hwhite c)
      split
      · contradiction
      · rename_i other hother
        rw [Option.some.injEq] at hother
        rw [hother] at hrest
        exact absurd (hrest ';' List.mem_cons_self) (by decide)
      · rename_i other _ hother
        rw [Option.some.injEq] at hother
        rw [hother] at hrest
        exact List.all_eq_true.2 hrest
    · have hrest : skipBlanks (gap ++ [';'] ++ white) = ';' :: white := by
        rw [List.append_assoc]
        exact skipBlanks_append hgap (by decide)
      rw [hrest]
      exact List.all_eq_true.2 hwhite

theorem mem_statementStarts_iff : rest ∈ source :: suffixesAfter endsStatement source ↔
    ∃ before, StartsStatement before ∧ source = before ++ rest := by
  rw [List.mem_cons, mem_suffixesAfter_iff]
  constructor
  · rintro (rfl | ⟨before, c, hc, rfl⟩)
    · exact ⟨[], by simp [StartsStatement], rfl⟩
    · exact ⟨before ++ [c], by simpa [StartsStatement] using hc, by simp⟩
  · rintro ⟨before, hbefore, rfl⟩
    rcases List.eq_nil_or_concat before with rfl | ⟨front, c, rfl⟩
    · exact .inl rfl
    · exact .inr ⟨front, c, hbefore c (by simp), by simp⟩

theorem endsInSentinel_iff : endsInSentinel source = true ↔ EndsInSentinel source := by
  rw [endsInSentinel, List.any_eq_true]
  simp only [mem_statementStarts_iff, isSentinelStatement_iff]
  constructor
  · rintro ⟨-, ⟨before, hbefore, rfl⟩, margin, quoted, gap, semicolon, white, hmargin, hquoted,
      hgap, hsemicolon, hwhite, rfl⟩
    have h := EndsInSentinel.mk hbefore hmargin hquoted hgap hsemicolon hwhite
    simpa only [List.append_assoc] using h
  · rintro @⟨before, margin, quoted, gap, semicolon, white, hbefore, hmargin, hquoted, hgap,
      hsemicolon, hwhite⟩
    refine ⟨margin ++ quoted ++ gap ++ semicolon ++ white, ⟨before, hbefore, by simp⟩, ?_⟩
    exact ⟨margin, quoted, gap, semicolon, white, hmargin, hquoted, hgap, hsemicolon, hwhite, rfl⟩

/-! Reading back. -/

theorem before?_eq_some_iff {literal : String} :
    before? literal text = some front ↔ text = front ++ literal.toList := by
  rw [before?, Option.map_eq_some_iff]
  simp only [dropLiteral?_eq_some_iff]
  constructor
  · rintro ⟨reversed, htext, rfl⟩
    rw [← List.reverse_inj, htext]
    simp
  · rintro rfl
    exact ⟨front.reverse, by simp, List.reverse_reverse front⟩

theorem before?_or_eq_some_iff :
    (before? "\"success\"" text).or (before? "'success'" text) = some front ↔
      ∃ quoted, IsQuotedSentinel quoted ∧ text = front ++ quoted := by
  rw [Option.or_eq_some_iff]
  simp only [before?_eq_some_iff, IsQuotedSentinel, or_and_right, exists_or, exists_eq_left]
  constructor
  · rintro (h | ⟨-, h⟩)
    · exact .inl h
    · exact .inr h
  · rintro (h | h)
    · exact .inl h
    · refine .inr ⟨?_, h⟩
      rw [Option.eq_none_iff_forall_ne_some]
      intro other hother
      rw [before?_eq_some_iff, h] at hother
      exact absurd (List.append_inj_right' hother (by decide)) (by decide)

theorem exists_dropSemicolon (text : List Char) : ∃ gap semicolon, AllBlank gap ∧
    (semicolon = [] ∨ semicolon = [';']) ∧ text = dropSemicolon text ++ gap ++ semicolon := by
  unfold dropSemicolon
  split
  case isTrue hlast =>
    obtain ⟨front, rfl⟩ := List.getLast?_eq_some_iff.1 hlast
    obtain ⟨gap, hfront, hgap⟩ := exists_dropEndWhile isBlank front
    refine ⟨gap, [';'], hgap, .inr rfl, ?_⟩
    rw [List.dropLast_concat, ← hfront]
  case isFalse => exact ⟨[], [], List.forall_mem_nil _, .inl rfl, by simp⟩

theorem StartsStatement.dropEndWhile {before : List Char} (h : StartsStatement before) :
    dropEndWhile isBlank before = before := by
  rcases List.eq_nil_or_concat before with rfl | ⟨front, c, rfl⟩
  · rfl
  · rw [List.concat_eq_append] at h ⊢
    have hc : endsStatement c = true := h c (by simp)
    refine dropEndWhile_concat (Bool.eq_false_iff.2 fun hblank => ?_)
    simp only [endsStatement, isBlank, Bool.or_eq_true, beq_iff_eq] at hc hblank
    rcases hblank with rfl | rfl <;> simp at hc

/-- What follows the quoted sentinel is dropped, and no more than that. -/
theorem dropSemicolon_of_sentinel {gap semicolon white : List Char}
    (hquoted : IsQuotedSentinel quoted) (hgap : AllBlank gap)
    (hsemicolon : semicolon = [] ∨ semicolon = [';']) (hwhite : ∀ c ∈ white, isWhite c = true) :
    dropSemicolon (dropEndWhile isWhite (front ++ quoted ++ gap ++ semicolon ++ white)) =
      front ++ quoted := by
  obtain ⟨letters, c, rfl, hc, hne⟩ := hquoted.exists_concat
  rw [dropEndWhile_append hwhite, ← List.append_assoc front]
  rcases hsemicolon with rfl | rfl
  · rw [List.append_nil, dropEndWhile_append fun c hc => isWhite_of_isBlank (hgap c hc),
      dropEndWhile_concat hc, dropSemicolon, if_neg (by simpa using hne)]
  · have hblank : isBlank c = false :=
      Bool.eq_false_iff.2 fun h => Bool.false_ne_true (hc.symm.trans (isWhite_of_isBlank h))
    rw [dropEndWhile_concat (by decide), dropSemicolon, if_pos List.getLast?_concat,
      List.dropLast_concat, dropEndWhile_append hgap, dropEndWhile_concat hblank]

theorem readsBack_iff : ReadsBack source ↔ EndsInSentinel source := by
  simp only [ReadsBack, beforeSentinel?, Option.mem_def, Option.map_eq_some_iff,
    before?_or_eq_some_iff]
  constructor
  · -- what is dropped on the way back is what a statement may end with
    rintro ⟨-, ⟨front, ⟨quoted, hquoted, hstatement⟩, rfl⟩, hstart⟩
    obtain ⟨white, hsource, hwhite⟩ := exists_dropEndWhile isWhite source
    obtain ⟨gap, semicolon, hgap, hsemicolon, hdrop⟩ :=
      exists_dropSemicolon (dropEndWhile isWhite source)
    obtain ⟨margin, hfront, hmargin⟩ := exists_dropEndWhile isBlank front
    have h := EndsInSentinel.mk hstart hmargin hquoted hgap hsemicolon hwhite
    rwa [← hfront, ← hstatement, ← hdrop, ← hsource] at h
  · rintro @⟨before, margin, quoted, gap, semicolon, white, hstart, hmargin, hquoted, hgap,
      hsemicolon, hwhite⟩
    refine ⟨before, ⟨before ++ margin, ⟨quoted, hquoted, ?_⟩, ?_⟩, hstart⟩
    · exact dropSemicolon_of_sentinel hquoted hgap hsemicolon hwhite
    · rw [dropEndWhile_append hmargin, hstart.dropEndWhile]

/-- What has no character in common with the end of a text occurs before it. -/
theorem infix_append_iff_of_disjoint {needle white : List Char} (hne : needle ≠ [])
    (h : ∀ c ∈ needle, c ∉ white) : needle <:+: text ++ white ↔ needle <:+: text := by
  refine ⟨fun hinfix => ?_, fun hinfix => hinfix.trans (List.prefix_append ..).isInfix⟩
  rcases List.infix_append_iff.1 hinfix with htext | hwhite | ⟨front, back, rfl, hfront, hback⟩
  · exact htext
  · obtain ⟨c, hc⟩ := List.exists_mem_of_ne_nil _ hne
    exact absurd (hwhite.subset hc) (h c hc)
  · obtain rfl : back = [] := List.eq_nil_iff_forall_not_mem.2 fun c hc =>
      h c (List.mem_append_right _ hc) (hback.subset hc)
    rw [List.append_nil]
    exact hfront.isInfix

/-- The expectation of a source is what reading it from its end comes to, and it does not depend on
white space at the end. The sentinel decides it exactly where it is the last statement. -/
theorem expectation_readsBack (source : String) :
    expectation source =
        (if ReadsBack source.toList then .successSentinel
          else if "reportCompare".toList <:+: source.toList then .comparison
          else .noCrash) ∧
      (∀ white : String, (∀ c ∈ white.toList, isWhite c = true) →
        expectation (source ++ white) = expectation source) ∧
      (expectation source = .successSentinel ↔ EndsInSentinel source.toList) := by
  have heq : ∀ source : String, expectation source =
      if ReadsBack source.toList then .successSentinel
      else if "reportCompare".toList <:+: source.toList then .comparison
      else .noCrash := by
    intro source
    exact if_congr (endsInSentinel_iff.trans readsBack_iff.symm) rfl
      (if_congr contains_iff_infix rfl rfl)
  refine ⟨heq source, fun white hwhite => ?_, ?_⟩
  · have hback : ReadsBack (source ++ white).toList ↔ ReadsBack source.toList := by
      rw [String.toList_append, ReadsBack, ReadsBack, beforeSentinel?, dropEndWhile_append hwhite,
        ← beforeSentinel?]
    have hoccurs : "reportCompare".toList <:+: (source ++ white).toList ↔
        "reportCompare".toList <:+: source.toList := by
      rw [String.toList_append]
      refine infix_append_iff_of_disjoint (by decide) fun c hc hmem => ?_
      have hletters : "reportCompare".toList.all (fun c => !isWhite c) = true := by decide
      have hletter : isWhite c = false := by simpa using List.all_eq_true.1 hletters c hc
      exact Bool.false_ne_true (hletter.symm.trans (hwhite c hmem))
    rw [heq, heq]
    simp only [hback, hoccurs]
  · rw [heq, ← readsBack_iff]
    split_ifs with hback <;> simp [hback]

end

/-- The sentinel that is an argument does not count, nor does the comparison after it: the last
statement does. -/
theorem expectation_readsBack_spaced :
    (∀ c ∈ "\r\n\u2003".toList, isWhite c = true) ∧
      ReadsBack "f('success'); reportCompare(0)\x7d\t'success' \t;".toList ∧
        expectation ("f('success'); reportCompare(0)\x7d\t'success' \t;" ++ "\r\n\u2003") =
          .successSentinel := by
  have hwhite : ∀ c ∈ "\r\n\u2003".toList, isWhite c = true :=
    List.all_eq_true.1 (by decide +kernel)
  have hback : ReadsBack "f('success'); reportCompare(0)\x7d\t'success' \t;".toList := by
    decide +kernel
  obtain ⟨heq, happend, -⟩ :=
    expectation_readsBack "f('success'); reportCompare(0)\x7d\t'success' \t;"
  exact ⟨hwhite, hback, (happend _ hwhite).trans (heq.trans (if_pos hback))⟩

end EngineTrials
