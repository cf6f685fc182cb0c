import EngineTrials.Proofs.Glob.Language

/-! Patterns without wildcards. Such a pattern stands for its own text and for no other, so
selecting paths by it comes down to comparing texts. The text of a path is made normal before that,
the text of a pattern is not: a pattern selects the path that it spells exactly if it is a normal
text. -/

namespace EngineTrials

namespace GlobToken

/-- A pattern without stars and question marks. -/
structure IsPlain (pattern : List Char) : Prop where
  no_star : '*' ∉ pattern
  no_one : '?' ∉ pattern

instance (pattern : List Char) : Decidable (IsPlain pattern) :=
  decidable_of_iff ('*' ∉ pattern ∧ '?' ∉ pattern)
    ⟨fun ⟨hstar, hone⟩ => ⟨hstar, hone⟩, fun h => ⟨h.no_star, h.no_one⟩⟩

theorem isPlain_cons_iff {c : Char} {pattern : List Char} :
    IsPlain (c :: pattern) ↔ c ≠ '*' ∧ c ≠ '?' ∧ IsPlain pattern := by
  constructor
  · rintro ⟨hstar, hone⟩
    exact ⟨(List.ne_of_not_mem_cons hstar).symm, (List.ne_of_not_mem_cons hone).symm,
      List.not_mem_of_not_mem_cons hstar, List.not_mem_of_not_mem_cons hone⟩
  · rintro ⟨hstar, hone, hrest⟩
    exact ⟨List.not_mem_cons_of_ne_of_not_mem hstar.symm hrest.no_star,
      List.not_mem_cons_of_ne_of_not_mem hone.symm hrest.no_one⟩

theorem IsPlain.reads_self {pattern : List Char} (h : IsPlain pattern) : Reads pattern pattern := by
  induction pattern with
  | nil => exact .nil
  | cons c rest ih =>
    obtain ⟨hstar, hone, hrest⟩ := isPlain_cons_iff.1 h
    exact .literal hstar hone (ih hrest)

theorem Reads.eq_of_isPlain {pattern text : List Char} (h : Reads pattern text)
    (hplain : IsPlain pattern) : text = pattern := by
  induction h with
  | nil => rfl
  | noFolders => exact absurd List.mem_cons_self hplain.no_star
  | folders => exact absurd List.mem_cons_self hplain.no_star
  | anything => exact absurd List.mem_cons_self hplain.no_star
  | within => exact absurd List.mem_cons_self hplain.no_star
  | one => exact absurd List.mem_cons_self hplain.no_one
  | literal _ _ _ ih => rw [ih (isPlain_cons_iff.1 hplain).2.2]

/-- A pattern without wildcards stands for its own text. -/
theorem IsPlain.reads_iff {pattern text : List Char} (h : IsPlain pattern) :
    Reads pattern text ↔ text = pattern := by
  constructor
  · exact fun hreads => hreads.eq_of_isPlain h
  · rintro rfl
    exact h.reads_self

end GlobToken

namespace Glob

open GlobToken (IsPlain)

theorem IsNormal.no_backslash {relative : Path} {text : List Char} (h : IsNormal relative text) :
    '\\' ∉ text := by
  obtain ⟨⟨k, hk⟩, -⟩ := h
  intro hmem
  have hslashes : '\\' ∈ relative.text.toList.map fun c => if c = '\\' then '/' else c := by
    rw [hk]
    exact List.mem_append_right _ hmem
  obtain ⟨c, -, hc⟩ := List.mem_map.1 hslashes
  split_ifs at hc with hback
  · exact absurd hc (by decide)
  · exact hback hc

/-- A path is of its own normal text if it has no backslash and no `./` at the start. -/
theorem isNormal_self_iff {p : String} :
    IsNormal ⟨p⟩ p.toList ↔ '\\' ∉ p.toList ∧ ¬ ['.', '/'] <+: p.toList := by
  constructor
  · exact fun h => ⟨h.no_backslash, h.2⟩
  · rintro ⟨hback, hhere⟩
    have hkept : ∀ c ∈ p.toList, (if c = '\\' then '/' else c) = c :=
      fun c hc => if_neg (ne_of_mem_of_not_mem hc hback)
    exact ⟨⟨0, (List.map_congr_left hkept).trans (List.map_id' _)⟩, hhere⟩

theorem IsLastName.subset {text name : List Char} (h : IsLastName text name) : name ⊆ text := by
  obtain ⟨-, rfl | ⟨before, rfl⟩⟩ := h
  · exact List.Subset.refl _
  · exact fun c hc => List.mem_append_right _ (List.mem_cons_of_mem _ hc)

/-- A pattern without wildcards denotes the paths whose normal text, or last name, is its own. -/
theorem denotes_iff_of_isPlain {pattern : List Char} (h : IsPlain pattern) {relative : Path} :
    Denotes pattern relative ↔ ∃ text, IsNormal relative text ∧
      (text = pattern ∨ '/' ∉ pattern ∧ IsLastName text pattern) := by
  simp only [Denotes, h.reads_iff, exists_eq_right]

theorem denotes_self_iff {p : String} (h : IsPlain p.toList) :
    Denotes p.toList ⟨p⟩ ↔ '\\' ∉ p.toList ∧ ¬ ['.', '/'] <+: p.toList := by
  rw [denotes_iff_of_isPlain h]
  constructor
  · rintro ⟨text, htext, rfl | ⟨hslash, hname⟩⟩
    · exact isNormal_self_iff.1 htext
    · refine ⟨fun hback => htext.no_backslash (hname.subset hback), fun hhere => hslash ?_⟩
      exact hhere.subset (by simp)
  · intro hnormal
    exact ⟨p.toList, isNormal_self_iff.2 hnormal, .inl rfl⟩

/-- A trimmed text without wildcards spells a glob that selects the paths whose normal text it is,
and if it has no slash, those whose last name it is. The path that it spells is one of them exactly
if the text has no backslash and no `./` at the start. -/
theorem selects_spelled_iff {p : String} (hne : p ≠ "") (htrimmed : Text.trimmed p = p)
    (hplain : IsPlain p.toList) :
    ∃ g, Glob.ofText? p = some g ∧ g.pattern = p ∧
      (∀ relative, g.selects relative = true ↔ ∃ text, IsNormal relative text ∧
        (text = p.toList ∨ '/' ∉ p.toList ∧ IsLastName text p.toList)) ∧
      (g.selects ⟨p⟩ = true ↔ '\\' ∉ p.toList ∧ ¬ ['.', '/'] <+: p.toList) := by
  have hglob : Glob.ofText? p = some ⟨p⟩ := by
    rw [ofText?_eq_some (by rwa [htrimmed]), htrimmed]
  refine ⟨⟨p⟩, hglob, rfl, fun relative => ?_, ?_⟩
  · exact (selects_iff_denotes _ _).trans (denotes_iff_of_isPlain hplain)
  · exact (selects_iff_denotes _ _).trans (denotes_self_iff hplain)

theorem selects_spelled_brackets :
    "lib/a+b(1).js" ≠ "" ∧ Text.trimmed "lib/a+b(1).js" = "lib/a+b(1).js" ∧
      IsPlain "lib/a+b(1).js".toList ∧ ∃ g, Glob.ofText? "lib/a+b(1).js" = some g ∧
        g.selects ⟨"lib/a+b(1).js"⟩ = true := by
  have hne : "lib/a+b(1).js" ≠ "" := by decide
  have htrimmed : Text.trimmed "lib/a+b(1).js" = "lib/a+b(1).js" := by decide +kernel
  have hplain : IsPlain "lib/a+b(1).js".toList := by decide +kernel
  obtain ⟨g, hg, -, -, hself⟩ := selects_spelled_iff hne htrimmed hplain
  exact ⟨hne, htrimmed, hplain, g, hg, hself.2 (by decide +kernel)⟩

/-- A pattern that starts with `./` does not select the path that it spells. -/
theorem not_selects_spelled_here :
    "./a.js" ≠ "" ∧ Text.trimmed "./a.js" = "./a.js" ∧ IsPlain "./a.js".toList ∧
      ∃ g, Glob.ofText? "./a.js" = some g ∧ g.selects ⟨"./a.js"⟩ = false := by
  refine ⟨by decide, by decide +kernel, by decide +kernel, ⟨"./a.js"⟩, ?_, ?_⟩ <;> decide +kernel

end Glob

end EngineTrials
