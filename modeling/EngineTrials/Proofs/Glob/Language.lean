import EngineTrials.Glob
import Mathlib.Data.List.Basic

/-! What a glob pattern stands for. `Reads` reads a pattern from left to right, with no tokens in
between, and `Denotes` says which paths a pattern selects. A match is computed in rows, one for each
token from the last one back: a row tells for each suffix of the text whether it is read by the
tokens so far, so every pass over a row needs one lemma, and no run of stars is ever tried twice. -/

namespace EngineTrials

open Text (pieces)

namespace GlobToken

/-- A pattern read from left to right, and a text that it stands for. -/
inductive Reads : List Char → List Char → Prop
  | nil : Reads [] []
  | noFolders {pattern text : List Char} : Reads pattern text →
      Reads ('*' :: '*' :: '/' :: pattern) text
  | folders {pattern first text : List Char} : '\n' ∉ first → Reads pattern text →
      Reads ('*' :: '*' :: '/' :: pattern) (first ++ '/' :: text)
  | anything {pattern first text : List Char} : pattern.head? ≠ some '/' → '\n' ∉ first →
      Reads pattern text → Reads ('*' :: '*' :: pattern) (first ++ text)
  | within {pattern first text : List Char} : pattern.head? ≠ some '*' → '/' ∉ first →
      Reads pattern text → Reads ('*' :: pattern) (first ++ text)
  | one {pattern text : List Char} {c : Char} : c ≠ '/' → Reads pattern text →
      Reads ('?' :: pattern) (c :: text)
  | literal {pattern text : List Char} {c : Char} : c ≠ '*' → c ≠ '?' → Reads pattern text →
      Reads (c :: pattern) (c :: text)

theorem ofPattern_anything {pattern : List Char} (h : pattern.head? ≠ some '/') :
    ofPattern ('*' :: '*' :: pattern) = .anything :: ofPattern pattern := by
  rw [ofPattern]
  rintro rest rfl
  exact h rfl

theorem ofPattern_within {pattern : List Char} (h : pattern.head? ≠ some '*') :
    ofPattern ('*' :: pattern) = .within :: ofPattern pattern := by
  rw [ofPattern]
  · rintro rest rfl
    exact h rfl
  · rintro rest rfl
    exact h rfl

theorem ofPattern_literal {pattern : List Char} {c : Char} (hstar : c ≠ '*') (hone : c ≠ '?') :
    ofPattern (c :: pattern) = .literal c :: ofPattern pattern := by
  rw [ofPattern]
  · rintro rest rfl
    exact absurd rfl hstar
  · rintro rest rfl
    exact absurd rfl hstar
  · exact hstar
  · exact hone

theorem all_onLine_iff {text : List Char} : text.all onLine = true ↔ '\n' ∉ text := by
  simp only [List.all_eq_true, onLine, bne_iff_ne]
  exact ⟨fun h hmem => h _ hmem rfl, fun h c hc heq => h (heq ▸ hc)⟩

theorem all_inName_iff {text : List Char} : text.all inName = true ↔ '/' ∉ text := by
  simp only [List.all_eq_true, inName, bne_iff_ne]
  exact ⟨fun h hmem => h _ hmem rfl, fun h c hc heq => h (heq ▸ hc)⟩

theorem Reads.matches {pattern text : List Char} (h : Reads pattern text) :
    Matches (ofPattern pattern) text := by
  induction h with
  | nil => exact .nil
  | @noFolders pattern text _ ih =>
    show Matches (.folders :: ofPattern pattern) ([] ++ text)
    exact .cons (.inl rfl) ih
  | @folders pattern first text hline _ ih =>
    have hstands : GlobToken.folders.Stands (first ++ ['/']) :=
      .inr ⟨first, rfl, all_onLine_iff.2 hline⟩
    simpa [ofPattern] using Matches.cons hstands ih
  | anything hslash hline _ ih =>
    rw [ofPattern_anything hslash]
    exact .cons (all_onLine_iff.2 hline) ih
  | within hstar hname _ ih =>
    rw [ofPattern_within hstar]
    exact .cons (all_inName_iff.2 hname) ih
  | @one pattern text c hslash _ ih =>
    show Matches (.one :: ofPattern pattern) ([c] ++ text)
    exact .cons ⟨c, rfl, by simpa [inName] using hslash⟩ ih
  | @literal pattern text c hstar hone _ ih =>
    rw [ofPattern_literal hstar hone]
    show Matches (.literal c :: ofPattern pattern) ([c] ++ text)
    exact .cons rfl ih

theorem Matches.reads {pattern text : List Char} (h : Matches (ofPattern pattern) text) :
    Reads pattern text := by
  fun_induction ofPattern pattern generalizing text with
  | case1 =>
    cases h
    exact .nil
  | case2 rest ih =>
    cases h with | cons hstands hrest =>
    rcases hstands with rfl | ⟨inner, rfl, hline⟩
    · exact .noFolders (ih hrest)
    · rw [List.append_assoc]
      exact .folders (all_onLine_iff.1 hline) (ih hrest)
  | case3 rest hslash ih =>
    cases h with | cons hstands hrest =>
    refine .anything (fun hhead => ?_) (all_onLine_iff.1 hstands) (ih hrest)
    obtain ⟨more, rfl⟩ := List.head?_eq_some_iff.1 hhead
    exact hslash more rfl
  | case4 rest hslash hstar ih =>
    cases h with | cons hstands hrest =>
    refine .within (fun hhead => ?_) (all_inName_iff.1 hstands) (ih hrest)
    obtain ⟨more, rfl⟩ := List.head?_eq_some_iff.1 hhead
    exact hstar more rfl
  | case5 rest ih =>
    cases h with | cons hstands hrest =>
    obtain ⟨c, rfl, hname⟩ := hstands
    exact .one (by simpa [inName] using hname) (ih hrest)
  | case6 c rest _ _ hstar hone ih =>
    cases h with | cons hstands hrest =>
    obtain rfl := hstands
    exact .literal hstar hone (ih hrest)

theorem reads_iff_matches {pattern text : List Char} :
    Reads pattern text ↔ Matches (ofPattern pattern) text :=
  ⟨Reads.matches, Matches.reads⟩

example : ofPattern "***/b".toList = [.anything, .within, .literal '/', .literal 'b'] := by
  decide +kernel

/-- A row tells for each suffix of a text whether it satisfies `P`. -/
inductive Tells (P : List Char → Prop) : List Char → List Bool → Prop
  | nil {b : Bool} : (b = true ↔ P []) → Tells P [] [b]
  | cons {c : Char} {text : List Char} {b : Bool} {row : List Bool} :
      (b = true ↔ P (c :: text)) → Tells P text row → Tells P (c :: text) (b :: row)

namespace Tells

variable {P Q : List Char → Prop} {text : List Char} {row others : List Bool} {p : Char → Bool}

theorem headD (h : Tells P text row) : row.headD false = true ↔ P text := by
  cases h with
  | nil hb => exact hb
  | cons hb _ => exact hb

theorem congr (h : Tells P text row) (hiff : ∀ suffix, P suffix ↔ Q suffix) : Tells Q text row := by
  induction h with
  | nil hb => exact .nil (hb.trans (hiff _))
  | cons hb _ ih => exact .cons (hb.trans (hiff _)) ih

theorem or (h : Tells P text row) (h' : Tells Q text others) :
    Tells (fun suffix => P suffix ∨ Q suffix) text (List.zipWith (· || ·) row others) := by
  induction h generalizing others with
  | nil hb =>
    cases h' with | nil hb' =>
    exact .nil (by rw [Bool.or_eq_true, hb, hb'])
  | cons hb _ ih =>
    cases h' with | cons hb' hrow' =>
    exact .cons (by rw [Bool.or_eq_true, hb, hb']) (ih hrow')

theorem step (h : Tells P text row) :
    Tells (fun suffix => ∃ c rest, suffix = c :: rest ∧ p c = true ∧ P rest) text
      (stepRow p text row) := by
  induction h with
  | nil _ => exact .nil (by simp)
  | cons _ hrow ih =>
    refine .cons ?_ ih
    rw [Bool.and_eq_true, hrow.headD]
    constructor
    · exact fun ⟨hc, hrest⟩ => ⟨_, _, rfl, hc, hrest⟩
    · rintro ⟨c, rest, htext, hc, hrest⟩
      obtain ⟨rfl, rfl⟩ := List.cons.inj htext
      exact ⟨hc, hrest⟩

/-- A run of characters at the start of a text stops at once or takes the first one. -/
theorem run_cons_iff {c : Char} :
    (∃ first rest, c :: text = first ++ rest ∧ first.all p = true ∧ P rest) ↔
      P (c :: text) ∨
        p c = true ∧ ∃ first rest, text = first ++ rest ∧ first.all p = true ∧ P rest := by
  constructor
  · rintro ⟨first, rest, htext, hall, hrest⟩
    cases first with
    | nil => exact .inl (by simpa [htext] using hrest)
    | cons d first =>
      obtain ⟨rfl, rfl⟩ := List.cons.inj htext
      rw [List.all_cons, Bool.and_eq_true] at hall
      exact .inr ⟨hall.1, first, rest, rfl, hall.2, hrest⟩
  · rintro (hrest | ⟨hc, first, rest, rfl, hall, hrest⟩)
    · exact ⟨[], c :: text, rfl, rfl, hrest⟩
    · exact ⟨c :: first, rest, rfl, by simp [hc, hall], hrest⟩

theorem run (h : Tells P text row) :
    Tells (fun suffix => ∃ first rest, suffix = first ++ rest ∧ first.all p = true ∧ P rest) text
      (runRow p text row) := by
  induction h with
  | nil hb =>
    refine .nil (hb.trans ⟨fun hnil => ⟨[], [], rfl, rfl, hnil⟩, ?_⟩)
    rintro ⟨first, rest, htext, -, hrest⟩
    obtain ⟨rfl, rfl⟩ := List.append_eq_nil_iff.1 htext.symm
    exact hrest
  | cons hb _ ih =>
    refine .cons ?_ ih
    rw [run_cons_iff, Bool.or_eq_true, Bool.and_eq_true, hb, ih.headD]

/-- The row of a token in front of what a row tells. -/
theorem token (t : GlobToken) (h : Tells P text row) :
    Tells (fun suffix => ∃ first rest, suffix = first ++ rest ∧ t.Stands first ∧ P rest) text
      (GlobToken.row text t row) := by
  cases t with
  | folders =>
    refine (h.or h.step.run).congr fun suffix => ?_
    constructor
    · rintro (hsuffix | ⟨inner, -, rfl, hline, c, rest, rfl, hc, hrest⟩)
      · exact ⟨[], suffix, rfl, .inl rfl, hsuffix⟩
      · obtain rfl : c = '/' := by simpa using hc
        exact ⟨inner ++ ['/'], rest, by simp, .inr ⟨inner, rfl, hline⟩, hrest⟩
    · rintro ⟨first, rest, rfl, rfl | ⟨inner, rfl, hline⟩, hrest⟩
      · exact .inl hrest
      · exact .inr ⟨inner, '/' :: rest, by simp, hline, '/', rest, rfl, rfl, hrest⟩
  | anything => exact h.run
  | within => exact h.run
  | one =>
    refine h.step.congr fun suffix => ?_
    constructor
    · rintro ⟨c, rest, rfl, hc, hrest⟩
      exact ⟨[c], rest, rfl, ⟨c, rfl, hc⟩, hrest⟩
    · rintro ⟨-, rest, rfl, ⟨c, rfl, hc⟩, hrest⟩
      exact ⟨c, rest, rfl, hc, hrest⟩
  | literal c =>
    refine h.step.congr fun suffix => ?_
    constructor
    · rintro ⟨d, rest, rfl, hd, hrest⟩
      exact ⟨[d], rest, rfl, by simpa [Stands] using hd, hrest⟩
    · rintro ⟨-, rest, rfl, rfl, hrest⟩
      exact ⟨c, rest, rfl, by simp, hrest⟩

end Tells

theorem tells_emptyRow (text : List Char) : Tells (· = []) text (emptyRow text) := by
  induction text with
  | nil => exact .nil (by simp)
  | cons c rest ih => exact .cons (by simp) ih

theorem matches_nil_iff {text : List Char} : Matches [] text ↔ text = [] := by
  constructor
  · intro h
    cases h
    rfl
  · rintro rfl
    exact .nil

theorem matches_cons_iff {t : GlobToken} {tokens : List GlobToken} {text : List Char} :
    Matches (t :: tokens) text ↔
      ∃ first rest, text = first ++ rest ∧ t.Stands first ∧ Matches tokens rest := by
  constructor
  · intro h
    cases h with | cons hstands hrest =>
    exact ⟨_, _, rfl, hstands, hrest⟩
  · rintro ⟨first, rest, rfl, hstands, hrest⟩
    exact .cons hstands hrest

/-- The rows of a match tell which suffixes the tokens stand for. -/
theorem tells_matches (tokens : List GlobToken) (text : List Char) :
    Tells (Matches tokens) text (tokens.foldr (row text) (emptyRow text)) := by
  induction tokens with
  | nil => exact (tells_emptyRow text).congr fun _ => matches_nil_iff.symm
  | cons t rest ih => exact (ih.token t).congr fun _ => matches_cons_iff.symm

theorem accepts_iff_reads {pattern text : List Char} :
    accepts (ofPattern pattern) text = true ↔ Reads pattern text :=
  (tells_matches _ text).headD.trans reads_iff_matches.symm

/-- What a pattern without a slash and without two stars in a row stands for has no slash. -/
theorem Reads.no_slash {pattern text : List Char} (h : Reads pattern text) (hslash : '/' ∉ pattern)
    (hstars : ¬ ['*', '*'] <:+: pattern) : '/' ∉ text := by
  induction h with
  | nil => exact List.not_mem_nil
  | noFolders => exact absurd (by simp) hslash
  | folders => exact absurd (by simp) hslash
  | anything => exact absurd (List.infix_append [] ['*', '*'] _) hstars
  | within _ hname _ ih =>
    have hrest := ih (mt (List.mem_cons_of_mem _) hslash) (mt List.infix_cons hstars)
    exact fun hmem => (List.mem_append.1 hmem).elim hname hrest
  | one hc _ ih =>
    have hrest := ih (mt (List.mem_cons_of_mem _) hslash) (mt List.infix_cons hstars)
    exact fun hmem => (List.mem_cons.1 hmem).elim (fun heq => hc heq.symm) hrest
  | literal _ _ _ ih =>
    have hrest := ih (mt (List.mem_cons_of_mem _) hslash) (mt List.infix_cons hstars)
    exact fun hmem => (List.mem_cons.1 hmem).elim (fun heq => hslash (heq ▸ List.mem_cons_self)) hrest

end GlobToken

namespace Glob

open GlobToken (Reads)

/-- The normal text of a relative path: slashes for backslashes, and all `./` at the start taken
away. -/
def IsNormal (relative : Path) (text : List Char) : Prop :=
  (∃ k, (relative.text.toList.map fun c => if c = '\\' then '/' else c) =
    (List.replicate k ['.', '/']).flatten ++ text) ∧ ¬ ['.', '/'] <+: text

/-- The part of a text after its last slash. -/
def IsLastName (text name : List Char) : Prop :=
  '/' ∉ name ∧ (text = name ∨ ∃ before, text = before ++ '/' :: name)

/-- A pattern selects the paths whose normal text it stands for, and if there is no slash in it,
also those whose last name it stands for. -/
def Denotes (pattern : List Char) (relative : Path) : Prop :=
  ∃ text, IsNormal relative text ∧
    (Reads pattern text ∨ '/' ∉ pattern ∧ ∃ name, IsLastName text name ∧ Reads pattern name)

theorem dropHere_eq_self {text : List Char} (h : ¬ ['.', '/'] <+: text) : dropHere text = text := by
  rw [dropHere]
  rintro rest rfl
  exact h (List.prefix_append ['.', '/'] rest)

theorem dropHere_replicate_append (k : Nat) (text : List Char) :
    dropHere ((List.replicate k ['.', '/']).flatten ++ text) = dropHere text := by
  induction k with
  | zero => rfl
  | succ k ih => exact ih

theorem exists_dropHere (text : List Char) :
    (∃ k, text = (List.replicate k ['.', '/']).flatten ++ dropHere text) ∧
      ¬ ['.', '/'] <+: dropHere text := by
  fun_induction dropHere text with
  | case1 rest ih =>
    obtain ⟨⟨k, hk⟩, hnot⟩ := ih
    exact ⟨⟨k + 1, congrArg ('.' :: '/' :: ·) hk⟩, hnot⟩
  | case2 text hnot =>
    refine ⟨⟨0, rfl⟩, ?_⟩
    rintro ⟨rest, rfl⟩
    exact hnot rest rfl

theorem isNormal_iff {relative : Path} {text : List Char} :
    IsNormal relative text ↔ text = normalize relative := by
  constructor
  · rintro ⟨⟨k, hk⟩, hnot⟩
    rw [normalize, hk, dropHere_replicate_append, dropHere_eq_self hnot]
  · rintro rfl
    exact exists_dropHere _

theorem lastName_eq_of_isLastName {text name : List Char} (h : IsLastName text name) :
    lastName text = name := by
  obtain ⟨hslash, rfl | ⟨before, rfl⟩⟩ := h
  · rw [lastName, Text.pieces_of_not_mem hslash]
    rfl
  · rw [lastName, Text.pieces_append_cons, Text.pieces_of_not_mem hslash, List.getLast?_concat]
    rfl

theorem exists_isLastName (text : List Char) : ∃ name, IsLastName text name := by
  induction text with
  | nil => exact ⟨[], List.not_mem_nil, .inl rfl⟩
  | cons c rest ih =>
    obtain ⟨name, hslash, rfl | ⟨before, rfl⟩⟩ := ih
    · by_cases hc : '/' = c
      · exact ⟨rest, hslash, .inr ⟨[], by rw [hc]; rfl⟩⟩
      · exact ⟨c :: rest, List.not_mem_cons_of_ne_of_not_mem hc hslash, .inl rfl⟩
    · exact ⟨name, hslash, .inr ⟨c :: before, rfl⟩⟩

theorem isLastName_iff {text name : List Char} : IsLastName text name ↔ name = lastName text := by
  obtain ⟨last, hlast⟩ := exists_isLastName text
  constructor
  · exact fun h => (lastName_eq_of_isLastName h).symm
  · rintro rfl
    rwa [lastName_eq_of_isLastName hlast]

theorem isNameOnly_iff (g : Glob) : g.isNameOnly = true ↔ '/' ∉ g.pattern.toList := by
  simp [isNameOnly]

theorem selects_iff_denotes (g : Glob) (relative : Path) :
    g.selects relative = true ↔ Denotes g.pattern.toList relative := by
  simp only [Denotes, isNormal_iff, isLastName_iff, exists_eq_left, selects, tokens,
    Bool.or_eq_true, Bool.and_eq_true, isNameOnly_iff, GlobToken.accepts_iff_reads]

/-- A pattern without a slash and without two stars in a row is tried on the last name alone. -/
theorem denotes_iff_reads_name {pattern text name : List Char} {relative : Path}
    (hslash : '/' ∉ pattern) (hstars : ¬ ['*', '*'] <:+: pattern) (htext : IsNormal relative text)
    (hname : IsLastName text name) : Denotes pattern relative ↔ Reads pattern name := by
  constructor
  · rintro ⟨text', htext', hreads | ⟨-, name', hname', hreads⟩⟩
    · -- a text without a slash is its own last name
      obtain rfl := (isNormal_iff.1 htext').trans (isNormal_iff.1 htext).symm
      have hwhole : IsLastName text' text' := ⟨hreads.no_slash hslash hstars, .inl rfl⟩
      obtain rfl := (isLastName_iff.1 hname).trans (isLastName_iff.1 hwhole).symm
      exact hreads
    · obtain rfl := (isNormal_iff.1 htext').trans (isNormal_iff.1 htext).symm
      obtain rfl := (isLastName_iff.1 hname').trans (isLastName_iff.1 hname).symm
      exact hreads
  · exact fun hreads => ⟨text, htext, .inr ⟨hslash, name, hname, hreads⟩⟩

/-- Every text that is not blank spells a glob, which selects the paths that its trimmed text
denotes. Without a slash and two stars in a row, only what comes after the last slash of a path
counts. -/
theorem exists_selects_iff_denotes {text : String} (h : Text.trimmed text ≠ "") :
    ∃ g, Glob.ofText? text = some g ∧ g.pattern = Text.trimmed text ∧
      (∀ relative, g.selects relative = true ↔ Denotes (Text.trimmed text).toList relative) ∧
      ('/' ∉ (Text.trimmed text).toList → ¬ ['*', '*'] <:+: (Text.trimmed text).toList →
        ∀ a b textA textB name, IsNormal a textA → IsNormal b textB → IsLastName textA name →
          IsLastName textB name → g.selects a = g.selects b) := by
  have hglob : Glob.ofText? text = some ⟨Text.trimmed text⟩ := by
    rw [Glob.ofText?, if_neg (by simpa using h)]
  refine ⟨⟨Text.trimmed text⟩, hglob, rfl, fun relative => selects_iff_denotes _ relative, ?_⟩
  intro hslash hstars a b textA textB name ha hb hnameA hnameB
  rw [Bool.eq_iff_iff, selects_iff_denotes, selects_iff_denotes,
    denotes_iff_reads_name hslash hstars ha hnameA, denotes_iff_reads_name hslash hstars hb hnameB]

/-- A pattern with blank space around it. -/
def paddedPattern : String := " te?t*.js\t"

theorem trimmed_paddedPattern : Text.trimmed paddedPattern = "te?t*.js" := by decide +kernel

theorem reads_paddedPattern : Reads "te?t*.js".toList "test1.js".toList :=
  have hend : Reads ['.', 'j', 's'] ['.', 'j', 's'] :=
    .literal (by decide) (by decide) (.literal (by decide) (by decide)
      (.literal (by decide) (by decide) .nil))
  have hrun : Reads ['*', '.', 'j', 's'] (['1'] ++ ['.', 'j', 's']) :=
    .within (by decide) (by decide) hend
  .literal (by decide) (by decide) (.literal (by decide) (by decide)
    (.one (by decide) (.literal (by decide) (by decide) hrun)))

theorem exists_selects_iff_denotes_padded :
    Text.trimmed paddedPattern ≠ "" ∧ ∃ g, Glob.ofText? paddedPattern = some g ∧
      g.selects ⟨"./lib\\test1.js"⟩ = g.selects ⟨"test1.js"⟩ ∧ g.selects ⟨"test1.js"⟩ = true := by
  have hne : Text.trimmed paddedPattern ≠ "" := by decide +kernel
  obtain ⟨g, hg, -, hselects, hname⟩ := exists_selects_iff_denotes hne
  rw [trimmed_paddedPattern] at hselects hname
  have hin : IsNormal ⟨"./lib\\test1.js"⟩ "lib/test1.js".toList := isNormal_iff.2 (by decide +kernel)
  have hat : IsNormal ⟨"test1.js"⟩ "test1.js".toList := isNormal_iff.2 (by decide +kernel)
  have hinName : IsLastName "lib/test1.js".toList "test1.js".toList :=
    isLastName_iff.2 (by decide +kernel)
  have hatName : IsLastName "test1.js".toList "test1.js".toList := ⟨by decide, .inl rfl⟩
  have hslash : '/' ∉ "te?t*.js".toList := by decide +kernel
  have hstars : ¬ ['*', '*'] <:+: "te?t*.js".toList := by decide +kernel
  exact ⟨hne, g, hg, hname hslash hstars _ _ _ _ _ hin hat hinName hatName,
    (hselects _).2 ⟨_, hat, .inl reads_paddedPattern⟩⟩

end Glob

end EngineTrials
