import EngineTrials.Proofs.Json.Reading
import Mathlib.Tactic.SplitIfs

/-! The printed text of a value spells the value, in any layout whose white space is blank, so it is
read back as the value. Without white space it holds no control character. -/

namespace EngineTrials.Json

/-! Numbers. -/

theorem head?_toDigits_ne {n : Nat} (hn : n ≠ 0) : (Nat.toDigits 10 n).head? ≠ some '0' := by
  induction n using Nat.strong_induction_on with
  | _ n ih =>
    rw [Nat.toDigits_eq_if (by decide)]
    split
    · simpa using hn
    · have hhead := ih (n / 10) (by omega) (by omega)
      rwa [List.head?_append, List.head?_eq_some_head Nat.toDigits_ne_nil] at *

theorem isNumeral_toDigits (n : Nat) : IsNumeral (Nat.toDigits 10 n) := by
  have hwhole : IsWhole (Nat.toDigits 10 n) := by
    by_cases hn : n = 0
    · subst hn
      exact .zero
    · exact .digits ⟨Nat.toDigits_ne_nil, fun c hc => Nat.isDigit_of_mem_toDigits (by decide)
        (by decide) hc⟩ (head?_toDigits_ne hn)
  simpa using IsNumeral.mk (.inl rfl) hwhole .none .none

/-! Strings. -/

theorem hexValue?_hexDigit : ∀ n < 16, hexValue? (hexDigit n) = some n := by decide

theorem spelledChar_escaped (c : Char) : SpelledChar c (escaped c) := by
  unfold escaped
  split_ifs with hquote hbackslash hfeed hreturn htab hback hform hcontrol
  · exact .letter (by rw [hquote]; rfl)
  · exact .letter (by rw [hbackslash]; rfl)
  · exact .letter (by rw [hfeed]; rfl)
  · exact .letter (by rw [hreturn]; rfl)
  · exact .letter (by rw [htab]; rfl)
  · exact .letter (by rw [hback]; rfl)
  · exact .letter (by rw [hform]; rfl)
  · refine .code ?_
    have hhigh := hexValue?_hexDigit (c.toNat / 16) (by omega)
    have hlow := hexValue?_hexDigit (c.toNat % 16) (by omega)
    have hzero : hexValue? '0' = some 0 := by decide
    simp only [hexValue4?, hzero, hhigh, hlow, Option.bind_eq_bind, Option.bind_some]
    congr 1
    omega
  · exact .itself hquote hbackslash (by omega)

theorem spelled_escaped (text : List Char) : Spelled text (text.flatMap escaped) := by
  induction text with
  | nil => exact .nil
  | cons c text ih => exact .cons (spelledChar_escaped c) ih

/-! Values. -/

/-- A value all of whose strings are texts and all of whose numbers are numerals. -/
inductive Spellable : Json → Prop
  | null : Spellable .null
  | bool (b : Bool) : Spellable (.bool b)
  | number {numeral} (hnumeral : IsNumeral numeral.toList) : Spellable (.number numeral)
  | string (text : String) : Spellable (.string (some text))
  | array {items} (hitems : ∀ item ∈ items, Spellable item) : Spellable (.array items)
  | object {members} (hkeys : ∀ m ∈ members, m.1 ≠ none)
    (hvalues : ∀ m ∈ members, Spellable m.2) : Spellable (.object members)

@[simp] theorem spellable_ofString (s : String) : (ofString s).Spellable := .string s

@[simp] theorem spellable_ofNat (n : Nat) : (ofNat n).Spellable :=
  .number (by simpa using isNumeral_toDigits n)

@[simp] theorem spellable_ofOption (s : Option String) : (ofOption s).Spellable := by
  cases s with
  | none => exact .null
  | some text => exact .string text

@[simp] theorem spellable_ofStrings (texts : List String) : (ofStrings texts).Spellable := by
  refine .array fun item hitem => ?_
  obtain ⟨text, -, rfl⟩ := List.mem_map.1 hitem
  exact .string text

theorem spellable_ofMembers {members : List (String × Json)}
    (h : ∀ m ∈ members, m.2.Spellable) : (ofMembers members).Spellable := by
  refine .object (fun m hm => ?_) fun m hm => ?_
  · obtain ⟨m, -, rfl⟩ := List.mem_map.1 hm
    simp
  · obtain ⟨member, hmember, rfl⟩ := List.mem_map.1 hm
    exact h member hmember

/-- A layout with nothing but white space. -/
structure Layout.IsBlank (layout : Layout) : Prop where
  lineAt : ∀ depth, Json.IsBlank (layout.lineAt depth)
  afterColon : Json.IsBlank layout.afterColon

theorem Layout.isBlank_compact : Layout.compact.IsBlank :=
  ⟨fun _ => isBlank_nil, isBlank_nil⟩

theorem Layout.isBlank_pretty : Layout.pretty.IsBlank := by
  refine ⟨fun depth c hc => ?_, fun c hc => ?_⟩
  · obtain rfl | ⟨-, rfl⟩ := by simpa [Layout.pretty] using hc
    · rfl
    · rfl
  · obtain rfl := by simpa [Layout.pretty] using hc
    rfl

section

variable {layout : Layout}

theorem writtenKey_quoted (hlayout : layout.IsBlank) {key : Option String} (hkey : key ≠ none)
    (depth : Nat) :
    WrittenKey key (layout.lineAt depth ++ quoted key ++ ':' :: layout.afterColon) := by
  cases key with
  | none => exact absurd rfl hkey
  | some key =>
    have hwritten := WrittenKey.mk (hlayout.lineAt depth) (spelled_escaped key.toList)
      isBlank_nil hlayout.afterColon
    simpa [quoted] using hwritten

theorem writtenItems_render (hlayout : layout.IsBlank) {items : List Json}
    (h : ∀ item ∈ items, ∀ depth, Written item (render layout depth item)) (depth : Nat) :
    WrittenItems items (renderItems layout depth items) := by
  induction items with
  | nil => exact .close (hlayout.lineAt depth)
  | cons item rest ih =>
    rw [List.forall_mem_cons] at h
    exact .next isBlank_nil (hlayout.lineAt _) (h.1 _) (ih h.2)

theorem writtenMembers_render (hlayout : layout.IsBlank) {members : List (Option String × Json)}
    (hkeys : ∀ m ∈ members, m.1 ≠ none)
    (h : ∀ m ∈ members, ∀ depth, Written m.2 (render layout depth m.2)) (depth : Nat) :
    WrittenMembers members (renderMembers layout depth members) := by
  induction members with
  | nil => exact .close (hlayout.lineAt depth)
  | cons member rest ih =>
    obtain ⟨key, value⟩ := member
    rw [List.forall_mem_cons] at hkeys h
    have hnext := WrittenMembers.next isBlank_nil (writtenKey_quoted hlayout hkeys.1 (depth + 1))
      (h.1 (depth + 1)) (ih hkeys.2 h.2)
    simpa [renderMembers] using hnext

/-- The printed text of a value spells the value. -/
theorem Spellable.written {j : Json} (h : j.Spellable) (hlayout : layout.IsBlank) (depth : Nat) :
    Written j (j.render layout depth) := by
  induction h generalizing depth with
  | null => exact .null
  | bool b => cases b <;> constructor
  | number hnumeral => exact .number hnumeral
  | string text => exact .string (spelled_escaped text.toList)
  | @array items _ ih =>
    cases items with
    | nil => exact .emptyArray isBlank_nil
    | cons item rest =>
      rw [List.forall_mem_cons] at ih
      exact .array (hlayout.lineAt _) (ih.1 _) (writtenItems_render hlayout ih.2 depth)
  | @object members hkeys _ ih =>
    cases members with
    | nil => exact .emptyObject isBlank_nil
    | cons member rest =>
      obtain ⟨key, value⟩ := member
      rw [List.forall_mem_cons] at hkeys ih
      have hobject := Written.object (writtenKey_quoted hlayout hkeys.1 (depth + 1))
        (ih.1 (depth + 1)) (writtenMembers_render hlayout hkeys.2 ih.2 depth)
      simpa [render] using hobject

end

/-! Control characters. -/

/-- No character is a control character. -/
def NoControls (text : List Char) : Prop := ∀ c ∈ text, 0x20 ≤ c.toNat

theorem noControls_append {a b : List Char} :
    NoControls (a ++ b) ↔ NoControls a ∧ NoControls b := List.forall_mem_append

theorem noControls_cons {c : Char} {text : List Char} :
    NoControls (c :: text) ↔ 0x20 ≤ c.toNat ∧ NoControls text := List.forall_mem_cons

theorem noControls_nil : NoControls [] := List.forall_mem_nil _

/-- All characters are ASCII, and none is a control character. -/
def IsPlain (text : List Char) : Prop := ∀ c ∈ text, 0x20 ≤ c.toNat ∧ c.toNat < 0x80

theorem IsPlain.noControls {text : List Char} (h : IsPlain text) : NoControls text :=
  fun c hc => (h c hc).1

theorem isPlain_append {a b : List Char} : IsPlain (a ++ b) ↔ IsPlain a ∧ IsPlain b :=
  List.forall_mem_append

theorem isPlain_cons {c : Char} {text : List Char} :
    IsPlain (c :: text) ↔ (0x20 ≤ c.toNat ∧ c.toNat < 0x80) ∧ IsPlain text := List.forall_mem_cons

theorem isPlain_nil : IsPlain [] := List.forall_mem_nil _

theorem IsDigits.isPlain {digits : List Char} (h : IsDigits digits) : IsPlain digits := by
  intro c hc
  have hdigit := h.2 c hc
  simp only [Char.isDigit, Bool.and_eq_true, decide_eq_true_eq, UInt32.le_iff_toNat_le] at hdigit
  have hlow : 48 ≤ c.toNat := hdigit.1
  have hhigh : c.toNat ≤ 57 := hdigit.2
  omega

theorem IsNumeral.isPlain {numeral : List Char} (h : IsNumeral numeral) : IsPlain numeral := by
  obtain ⟨hsign, hwhole, hfraction, hexponent⟩ := h
  simp only [isPlain_append]
  refine ⟨⟨⟨?_, ?_⟩, ?_⟩, ?_⟩
  · obtain rfl | rfl := hsign
    · exact isPlain_nil
    · exact isPlain_cons.2 ⟨by decide, isPlain_nil⟩
  · cases hwhole with
    | zero => exact isPlain_cons.2 ⟨by decide, isPlain_nil⟩
    | digits hdigits => exact hdigits.isPlain
  · cases hfraction with
    | none => exact isPlain_nil
    | some hdigits => exact isPlain_cons.2 ⟨by decide, hdigits.isPlain⟩
  · cases hexponent with
    | none => exact isPlain_nil
    | some hletter hsign hdigits =>
      rw [List.cons_append, isPlain_cons, isPlain_append]
      refine ⟨?_, ?_, hdigits.isPlain⟩
      · obtain rfl | rfl := hletter <;> decide
      · obtain rfl | rfl | rfl := hsign
        · exact isPlain_nil
        · exact isPlain_cons.2 ⟨by decide, isPlain_nil⟩
        · exact isPlain_cons.2 ⟨by decide, isPlain_nil⟩

theorem plain_of_hexValue? {c : Char} {n : Nat} (h : hexValue? c = some n) :
    0x20 ≤ c.toNat ∧ c.toNat < 0x80 := by
  have hzero : '0'.toNat = 48 := rfl
  have hnine : '9'.toNat = 57 := rfl
  have hsmall : 'a'.toNat = 97 ∧ 'f'.toNat = 102 := ⟨rfl, rfl⟩
  have hlarge : 'A'.toNat = 65 ∧ 'F'.toNat = 70 := ⟨rfl, rfl⟩
  simp only [hexValue?] at h
  split_ifs at h <;> omega

theorem isPlain_code {a b c d : Char} {n : Nat} (h : hexValue4? a b c d = some n) :
    IsPlain ['\\', 'u', a, b, c, d] := by
  simp only [hexValue4?, Option.bind_eq_bind, Option.bind_eq_some_iff] at h
  obtain ⟨_, ha, _, hb, _, hc, _, hd, -⟩ := h
  simp only [isPlain_cons]
  exact ⟨by decide, by decide, plain_of_hexValue? ha, plain_of_hexValue? hb, plain_of_hexValue? hc,
    plain_of_hexValue? hd, isPlain_nil⟩

theorem plain_of_shortEscape? {letter c : Char} (h : shortEscape? letter = some c) :
    0x20 ≤ letter.toNat ∧ letter.toNat < 0x80 := by
  unfold shortEscape? at h
  split_ifs at h with hitself
  · obtain rfl | rfl | rfl := hitself <;> decide
  all_goals
    subst letter
    decide

/-- An escape is plain. -/
theorem SpelledChar.eq_or_isPlain {c : Char} {spelling : List Char} (h : SpelledChar c spelling) :
    spelling = [c] ∧ 0x20 ≤ c.toNat ∨ IsPlain spelling := by
  cases h with
  | itself _ _ hcontrol => exact .inl ⟨rfl, hcontrol⟩
  | letter hletter =>
    simp only [isPlain_cons]
    exact .inr ⟨by decide, plain_of_shortEscape? hletter, isPlain_nil⟩
  | code hcode => exact .inr (isPlain_code hcode)
  | pair hhigh hlow _ _ _ =>
    exact .inr (isPlain_append.2 ⟨isPlain_code hhigh, isPlain_code hlow⟩)

/-- A string is spelled without control characters. -/
theorem SpelledChar.noControls {c : Char} {spelling : List Char} (h : SpelledChar c spelling) :
    NoControls spelling := by
  obtain ⟨rfl, hcontrol⟩ | hplain := h.eq_or_isPlain
  · exact noControls_cons.2 ⟨hcontrol, noControls_nil⟩
  · exact hplain.noControls

theorem Spelled.noControls {text spelling : List Char} (h : Spelled text spelling) :
    NoControls spelling := by
  induction h with
  | nil => exact noControls_nil
  | cons hchar _ ih => exact noControls_append.2 ⟨hchar.noControls, ih⟩

theorem noControls_quoted (key : Option String) : NoControls (quoted key) := by
  cases key with
  | none => simp [quoted, NoControls]
  | some text =>
    simp only [quoted, noControls_append, noControls_cons]
    exact ⟨⟨by decide, (spelled_escaped text.toList).noControls⟩, by decide, noControls_nil⟩

theorem noControls_renderItems {items : List Json}
    (h : ∀ item ∈ items, ∀ depth, NoControls (item.render .compact depth)) (depth : Nat) :
    NoControls (renderItems .compact depth items) := by
  induction items with
  | nil => simp [renderItems, Layout.compact, NoControls]
  | cons item rest ih =>
    rw [List.forall_mem_cons] at h
    simp only [renderItems, noControls_append, noControls_cons]
    exact ⟨⟨⟨by decide, noControls_nil⟩, h.1 _⟩, ih h.2⟩

theorem noControls_renderMembers {members : List (Option String × Json)}
    (h : ∀ m ∈ members, ∀ depth, NoControls (m.2.render .compact depth)) (depth : Nat) :
    NoControls (renderMembers .compact depth members) := by
  induction members with
  | nil => simp [renderMembers, Layout.compact, NoControls]
  | cons member rest ih =>
    obtain ⟨key, value⟩ := member
    rw [List.forall_mem_cons] at h
    simp only [renderMembers, noControls_append, noControls_cons]
    exact ⟨⟨⟨⟨⟨by decide, noControls_nil⟩, noControls_quoted key⟩, by decide, noControls_nil⟩,
      h.1 _⟩, ih h.2⟩

/-- The text without white space has no control characters. -/
theorem Spellable.noControls {j : Json} (h : j.Spellable) (depth : Nat) :
    NoControls (j.render .compact depth) := by
  induction h generalizing depth with
  | null => simp [render, NoControls]
  | bool b => cases b <;> simp [render, NoControls]
  | number hnumeral => exact hnumeral.isPlain.noControls
  | string text => exact noControls_quoted _
  | @array items _ ih =>
    cases items with
    | nil => simp [render, NoControls]
    | cons item rest =>
      rw [List.forall_mem_cons] at ih
      simp only [render, noControls_append, noControls_cons]
      exact ⟨⟨⟨by decide, noControls_nil⟩, ih.1 _⟩, noControls_renderItems ih.2 depth⟩
  | @object members _ _ ih =>
    cases members with
    | nil => simp [render, NoControls]
    | cons member rest =>
      obtain ⟨key, value⟩ := member
      rw [List.forall_mem_cons] at ih
      simp only [render, noControls_append, noControls_cons]
      exact ⟨⟨⟨⟨⟨by decide, noControls_nil⟩, noControls_quoted key⟩, by decide, noControls_nil⟩,
        ih.1 _⟩, noControls_renderMembers ih.2 depth⟩

/-! Reading what is printed. -/

/-- The text over several lines is read as the value. -/
theorem parse?_pretty {j : Json} (h : j.Spellable) : parse? j.pretty.toList = some j := by
  have hread := parse?_written (h.written Layout.isBlank_pretty 0) isBlank_nil isBlank_nil
  simpa [pretty] using hread

end EngineTrials.Json
