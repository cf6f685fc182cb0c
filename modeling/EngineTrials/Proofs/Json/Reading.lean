import EngineTrials.Proofs.Json.Grammar
import Mathlib.Data.List.TakeWhile

/-! Every text of a value is read as that value, whatever follows it; a number has to end where the
text goes on. -/

namespace EngineTrials.Json

section

variable {fuel : Nat} {text rest more : List Char} {c : Char}

theorem skipSpace_append {blank : List Char} (h : IsBlank blank) :
    skipSpace (blank ++ text) = skipSpace text :=
  List.dropWhile_append_of_pos h

theorem skipSpace_blank {blank : List Char} (h : IsBlank blank) : skipSpace blank = [] :=
  List.dropWhile_eq_nil_iff.2 h

theorem skipSpace_cons (h : isSpace c = false) : skipSpace (c :: text) = c :: text := by
  simp [skipSpace, h]

/-- No number goes on with this text. -/
def EndsNumber (text : List Char) : Prop :=
  ∀ c ∈ text.head?, c.isDigit = false ∧ c ≠ '.' ∧ c ≠ 'e' ∧ c ≠ 'E'

theorem EndsNumber.nil : EndsNumber [] := by simp [EndsNumber]

theorem EndsNumber.cons (h : c.isDigit = false ∧ c ≠ '.' ∧ c ≠ 'e' ∧ c ≠ 'E') :
    EndsNumber (c :: text) := by
  simpa [EndsNumber] using h

theorem EndsNumber.blank_append {blank : List Char} (hblank : IsBlank blank)
    (h : EndsNumber text) : EndsNumber (blank ++ text) := by
  cases blank with
  | nil => exact h
  | cons space blank =>
    refine .cons ?_
    obtain rfl | rfl | rfl | rfl := isSpace_iff.1 (hblank space List.mem_cons_self) <;> decide

/-! Numbers. -/

theorem ne_of_isDigit {d x : Char} (hd : d.isDigit = true) (hx : x.isDigit = false) : d ≠ x := by
  rintro rfl
  exact Bool.false_ne_true (hx.symm.trans hd)

theorem digits?_append {digits : List Char} (h : IsDigits digits)
    (hrest : ∀ c ∈ rest.head?, c.isDigit = false) :
    digits? (digits ++ rest) = some (digits, rest) := by
  have htake : (digits ++ rest).takeWhile Char.isDigit = digits := by
    rw [List.takeWhile_append_of_pos h.2]
    cases rest with
    | nil => simp
    | cons c rest => simp [hrest c rfl]
  have hdrop : (digits ++ rest).dropWhile Char.isDigit = rest := by
    rw [List.dropWhile_append_of_pos h.2]
    cases rest with
    | nil => simp
    | cons c rest => simp [hrest c rfl]
  unfold digits?
  rw [htake, hdrop]
  obtain ⟨d, digits, rfl⟩ := List.exists_cons_of_ne_nil h.1
  rfl

theorem IsDigits.head {digits : List Char} (h : IsDigits digits) :
    ∃ d more, digits = d :: more ∧ d.isDigit = true := by
  obtain ⟨d, more, rfl⟩ := List.exists_cons_of_ne_nil h.1
  exact ⟨d, more, rfl, h.2 d (by simp)⟩

theorem IsWhole.head {whole : List Char} (h : IsWhole whole) :
    ∃ d more, whole = d :: more ∧ d.isDigit = true := by
  cases h with
  | zero => exact ⟨'0', [], rfl, by decide⟩
  | digits hdigits => exact hdigits.head

theorem wholePart?_append {whole : List Char} (h : IsWhole whole)
    (hrest : ∀ c ∈ rest.head?, c.isDigit = false) :
    wholePart? (whole ++ rest) = some (whole, rest) := by
  cases h with
  | zero => rfl
  | digits hdigits hhead =>
    have hwhole : wholePart? (whole ++ rest) = digits? (whole ++ rest) := by
      obtain ⟨d, more, rfl, -⟩ := hdigits.head
      have hd : d ≠ '0' := by simpa using hhead
      simp [wholePart?, hd]
    rw [hwhole, digits?_append hdigits hrest]

theorem fraction?_append {fraction : List Char} (h : IsFraction fraction)
    (hdigit : ∀ c ∈ rest.head?, c.isDigit = false) (hpoint : rest.head? ≠ some '.') :
    fraction? (fraction ++ rest) = some (fraction, rest) := by
  cases h with
  | none =>
    cases rest with
    | nil => rfl
    | cons c rest =>
      have hc : c ≠ '.' := by simpa using hpoint
      simp [fraction?, hc]
  | some hdigits => simp [fraction?, digits?_append hdigits hdigit]

theorem exponent?_append {exponent : List Char} (h : IsExponent exponent)
    (hrest : EndsNumber rest) : exponent? (exponent ++ rest) = some (exponent, rest) := by
  cases h with
  | none =>
    cases rest with
    | nil => rfl
    | cons c rest =>
      obtain ⟨-, -, hsmall, hlarge⟩ := hrest c rfl
      simp [exponent?, hsmall, hlarge]
  | some hletter hsign hdigits =>
    have hread := digits?_append hdigits fun c hc => (hrest c hc).1
    obtain rfl | rfl | rfl := hsign
    · obtain ⟨d, more, rfl, hd⟩ := hdigits.head
      have hplus : d ≠ '+' := ne_of_isDigit hd (by decide)
      have hminus : d ≠ '-' := ne_of_isDigit hd (by decide)
      rw [List.cons_append] at hread
      simp [exponent?, hletter, hplus, hminus, hread]
    · simp [exponent?, hletter, hread]
    · simp [exponent?, hletter, hread]

/-- The head of an exponent and what follows is no digit and no point. -/
theorem IsExponent.head {exponent : List Char} (h : IsExponent exponent)
    (hrest : EndsNumber rest) :
    ∀ c ∈ (exponent ++ rest).head?, c.isDigit = false ∧ c ≠ '.' := by
  cases h with
  | none => exact fun c hc => ⟨(hrest c hc).1, (hrest c hc).2.1⟩
  | some hletter _ _ =>
    rintro c hc
    obtain rfl : _ = c := by simpa using hc
    obtain rfl | rfl := hletter <;> decide

theorem IsFraction.head {fraction : List Char} (h : IsFraction fraction)
    (hrest : ∀ c ∈ rest.head?, c.isDigit = false) :
    ∀ c ∈ (fraction ++ rest).head?, c.isDigit = false := by
  cases h with
  | none => exact hrest
  | some _ =>
    rintro c hc
    obtain rfl : '.' = c := by simpa using hc
    decide

theorem numeral?_append {numeral : List Char} (h : IsNumeral numeral) (hrest : EndsNumber rest) :
    numeral? (numeral ++ rest) = some (String.ofList numeral, rest) := by
  obtain ⟨hsign, hwhole, hfraction, hexponent⟩ := h
  rename_i sign whole fraction exponent
  have hexponentHead := hexponent.head hrest
  have hfractionHead := hfraction.head fun c hc => (hexponentHead c hc).1
  have hpoint : (exponent ++ rest).head? ≠ some '.' := fun hhead => (hexponentHead _ hhead).2 rfl
  have hreadWhole := wholePart?_append hwhole hfractionHead
  have hreadFraction := fraction?_append hfraction (fun c hc => (hexponentHead c hc).1) hpoint
  have hreadExponent := exponent?_append hexponent hrest
  obtain rfl | rfl := hsign
  · obtain ⟨d, more, rfl, hd⟩ := hwhole.head
    have hminus : d ≠ '-' := ne_of_isDigit hd (by decide)
    simp only [List.cons_append] at hreadWhole
    simp [numeral?, hminus, hreadWhole, hreadFraction, hreadExponent, String.append_assoc]
  · simp [numeral?, hreadWhole, hreadFraction, hreadExponent]

/-! Strings. -/

theorem textOfCodes?_cons {n : Nat} (hhigh : isHighSurrogate n = false)
    (hlow : isLowSurrogate n = false) (codes : List Nat) :
    textOfCodes? (n :: codes) = (textOfCodes? codes).map (Char.ofNat n :: ·) := by
  cases codes with
  | nil => simp [textOfCodes?, hhigh, hlow]
  | cons m codes => simp [textOfCodes?, hhigh, hlow]

theorem not_surrogate (c : Char) :
    isHighSurrogate c.toNat = false ∧ isLowSurrogate c.toNat = false := by
  have hvalid : c.toNat < 0xD800 ∨ 0xDFFF < c.toNat ∧ c.toNat < 0x110000 := c.valid
  simp only [isHighSurrogate, isLowSurrogate, Bool.and_eq_false_iff, decide_eq_false_iff_not]
  omega

theorem textOfCodes?_toNat (c : Char) (codes : List Nat) :
    textOfCodes? (c.toNat :: codes) = (textOfCodes? codes).map (c :: ·) := by
  rw [textOfCodes?_cons (not_surrogate c).1 (not_surrogate c).2, Char.ofNat_toNat]

theorem shortEscape?_ne {letter : Char} (h : shortEscape? letter = some c) : letter ≠ 'u' := by
  rintro rfl
  simp [shortEscape?] at h

/-- A spelling is read as one or two codes, and these stand for its character. -/
theorem SpelledChar.read {spelling : List Char} (h : SpelledChar c spelling) :
    ∃ units : List Nat,
      (∀ more, codes? (spelling ++ more) = (codes? more).map fun p => (units ++ p.1, p.2)) ∧
        ∀ codes, textOfCodes? (units ++ codes) = (textOfCodes? codes).map (c :: ·) := by
  cases h with
  | itself hquote hbackslash hcontrol =>
    refine ⟨[c.toNat], fun more => ?_, textOfCodes?_toNat c⟩
    simp [codes?, hbackslash, Nat.not_lt.2 hcontrol]
  | letter hletter =>
    refine ⟨[c.toNat], fun more => ?_, textOfCodes?_toNat c⟩
    have hu := shortEscape?_ne hletter
    rw [List.cons_append, List.singleton_append, codes?.eq_4 _ _ (by simp [hu]), hletter]
    cases codes? more <;> rfl
  | code hcode =>
    refine ⟨[c.toNat], fun more => ?_, textOfCodes?_toNat c⟩
    simp only [codes?, hcode, List.cons_append, List.nil_append]
    cases codes? more <;> rfl
  | pair hhigh hlow hisHigh hisLow hc =>
    rename_i high low _ _ _ _ _ _ _ _
    refine ⟨[high, low], fun more => ?_, fun codes => ?_⟩
    · simp only [codes?, hhigh, hlow, List.cons_append, List.nil_append]
      cases codes? more <;> rfl
    · simp [textOfCodes?, hisHigh, hisLow, ← hc]

theorem Spelled.read {text spelling : List Char} (h : Spelled text spelling) (rest : List Char) :
    ∃ codes, codes? (spelling ++ '"' :: rest) = some (codes, rest) ∧
      textOfCodes? codes = some text := by
  induction h with
  | nil => exact ⟨[], rfl, rfl⟩
  | cons hchar _ ih =>
    obtain ⟨codes, hcodes, htext⟩ := ih
    obtain ⟨units, hunits, hchar⟩ := hchar.read
    exact ⟨units ++ codes, by rw [List.append_assoc, hunits, hcodes]; rfl,
      by rw [hchar, htext]; rfl⟩

theorem literal?_append {text : String} {spelling : List Char} (h : Spelled text.toList spelling)
    (rest : List Char) : literal? (spelling ++ '"' :: rest) = some (some text, rest) := by
  obtain ⟨codes, hcodes, htext⟩ := h.read rest
  simp [literal?, hcodes, htext]

/-! Values. -/

/-- The start of a number. -/
theorem IsNumeral.head {numeral : List Char} (h : IsNumeral numeral) :
    ∃ c more, numeral = c :: more ∧ (c.isDigit = true ∨ c = '-') := by
  obtain ⟨hsign, hwhole, -, -⟩ := h
  obtain ⟨d, more, rfl, hd⟩ := hwhole.head
  obtain rfl | rfl := hsign
  · exact ⟨d, _, rfl, .inl hd⟩
  · exact ⟨'-', _, rfl, .inr rfl⟩

/-- The start of a number starts nothing else. -/
theorem ne_of_startsNumber {x : Char} (hc : c.isDigit = true ∨ c = '-')
    (hx : x.isDigit = false ∧ x ≠ '-') : c ≠ x := by
  obtain hdigit | rfl := hc
  · exact ne_of_isDigit hdigit hx.1
  · exact hx.2.symm

theorem isSpace_of_startsNumber (hc : c.isDigit = true ∨ c = '-') : isSpace c = false := by
  have hspace : c ≠ ' ' := ne_of_startsNumber hc (by decide)
  have htab : c ≠ '\t' := ne_of_startsNumber hc (by decide)
  have hfeed : c ≠ '\n' := ne_of_startsNumber hc (by decide)
  have hreturn : c ≠ '\r' := ne_of_startsNumber hc (by decide)
  simp [isSpace, hspace, htab, hfeed, hreturn]

/-- The start of a value is no white space and closes nothing. -/
theorem Written.head {j : Json} (h : Written j text) :
    ∃ c more, text = c :: more ∧ isSpace c = false ∧ c ≠ ']' := by
  cases h with
  | number hnumeral =>
    obtain ⟨c, more, htext, hc⟩ := hnumeral.head
    exact ⟨c, more, htext, isSpace_of_startsNumber hc, ne_of_startsNumber hc (by decide)⟩
  | _ => exact ⟨_, _, rfl, by decide, by decide⟩

theorem Written.length_pos {j : Json} (h : Written j text) : 0 < text.length := by
  obtain ⟨c, more, rfl, -⟩ := h.head
  simp

theorem value?_append {blank : List Char} (hblank : IsBlank blank) :
    value? fuel (blank ++ text) = value? fuel text := by
  cases fuel with
  | zero => simp [value?]
  | succ fuel => rw [value?, value?, skipSpace_append hblank]

/-- White space, and then a comma or a closing bracket. -/
def EndsPart (text : List Char) : Prop :=
  ∃ blank c more, text = blank ++ c :: more ∧ IsBlank blank ∧ (c = ',' ∨ c = ']' ∨ c = '\x7d')

theorem EndsPart.endsNumber (h : EndsPart text) : EndsNumber (text ++ rest) := by
  obtain ⟨blank, c, more, rfl, hblank, hc⟩ := h
  rw [List.append_assoc]
  apply EndsNumber.blank_append hblank
  apply EndsNumber.cons
  obtain rfl | rfl | rfl := hc <;> decide

theorem EndsPart.length_pos (h : EndsPart text) : 0 < text.length := by
  obtain ⟨blank, c, more, rfl, -⟩ := h
  simp only [List.length_append, List.length_cons]
  omega

theorem WrittenItems.endsPart {items : List Json} (h : WrittenItems items more) :
    EndsPart more := by
  cases h with
  | close hblank => exact ⟨_, ']', [], rfl, hblank, by simp⟩
  | next hbefore _ _ _ => exact ⟨_, ',', _, by simp; rfl, hbefore, by simp⟩

theorem WrittenMembers.endsPart {members : List (Option String × Json)}
    (h : WrittenMembers members more) : EndsPart more := by
  cases h with
  | close hblank => exact ⟨_, '\x7d', [], rfl, hblank, by simp⟩
  | next hbefore _ _ _ => exact ⟨_, ',', _, by simp; rfl, hbefore, by simp⟩

theorem items?_close {item : Json} {after : List Char}
    (hitem : value? fuel text = some (item, after)) (hclose : skipSpace after = ']' :: rest) :
    items? (fuel + 1) text = some ([item], rest) := by
  simp [items?, hitem, hclose]

theorem items?_next {item : Json} {items : List Json} {after next : List Char}
    (hitem : value? fuel text = some (item, after)) (hcomma : skipSpace after = ',' :: next)
    (hitems : items? fuel next = some (items, rest)) :
    items? (fuel + 1) text = some (item :: items, rest) := by
  simp [items?, hitem, hcomma, hitems]

/-- With this fuel a member is read at the start of a text, and this text is left. -/
def ReadsMember (fuel : Nat) (text : List Char) (member : Option String × Json)
    (after : List Char) : Prop :=
  ∃ name afterName value, skipSpace text = '"' :: name ∧
    literal? name = some (member.1, afterName) ∧ skipSpace afterName = ':' :: value ∧
      value? fuel value = some (member.2, after)

theorem members?_close {member : Option String × Json} {after : List Char}
    (hmember : ReadsMember fuel text member after) (hclose : skipSpace after = '\x7d' :: rest) :
    members? (fuel + 1) text = some ([member], rest) := by
  obtain ⟨name, afterName, value, htext, hname, hcolon, hvalue⟩ := hmember
  simp [members?, htext, hname, hcolon, hvalue, hclose]

theorem members?_next {member : Option String × Json} {members : List (Option String × Json)}
    {after next : List Char} (hmember : ReadsMember fuel text member after)
    (hcomma : skipSpace after = ',' :: next)
    (hmembers : members? fuel next = some (members, rest)) :
    members? (fuel + 1) text = some (member :: members, rest) := by
  obtain ⟨name, afterName, value, htext, hname, hcolon, hvalue⟩ := hmember
  simp [members?, htext, hname, hcolon, hvalue, hcomma, hmembers]

theorem WrittenKey.readsMember {key : Option String} {name value after : List Char} {j : Json}
    (hkey : WrittenKey key name) (hvalue : value? fuel value = some (j, after)) :
    ReadsMember fuel (name ++ value) (key, j) after := by
  cases hkey with
  | mk hbefore hkey hbetween hafter =>
    rename_i before key spelling between blank
    refine ⟨spelling ++ '"' :: (between ++ ':' :: (blank ++ value)), _, blank ++ value, ?_,
      literal?_append hkey _, ?_, (value?_append hafter).trans hvalue⟩
    · simp only [List.append_assoc, List.cons_append]
      rw [skipSpace_append hbefore, skipSpace_cons (by decide)]
    · rw [skipSpace_append hbetween, skipSpace_cons (by decide)]

theorem value?_literal {word : String} {spelling : List Char} (h : Spelled word.toList spelling) :
    value? (fuel + 1) ('"' :: (spelling ++ '"' :: rest)) = some (.string (some word), rest) := by
  rw [value?, skipSpace_cons (by decide)]
  simp [literal?_append h]

theorem value?_numeral {numeral : String} (h : IsNumeral numeral.toList)
    (hrest : EndsNumber rest) :
    value? (fuel + 1) (numeral.toList ++ rest) = some (.number numeral, rest) := by
  have hread := numeral?_append h hrest
  obtain ⟨c, more, htext, hc⟩ := h.head
  have hbrace : c ≠ '\x7b' := ne_of_startsNumber hc (by decide)
  have hbracket : c ≠ '[' := ne_of_startsNumber hc (by decide)
  have hquote : c ≠ '"' := ne_of_startsNumber hc (by decide)
  have hnull : c ≠ 'n' := ne_of_startsNumber hc (by decide)
  have htrue : c ≠ 't' := ne_of_startsNumber hc (by decide)
  have hfalse : c ≠ 'f' := ne_of_startsNumber hc (by decide)
  rw [value?, htext, List.cons_append, skipSpace_cons (isSpace_of_startsNumber hc)]
  simp only [hbrace, hbracket, hquote, hnull, htrue, hfalse, if_false]
  rw [← List.cons_append, ← htext, hread, Option.map_some, String.ofList_toList]

theorem value?_emptyArray {blank : List Char} (h : IsBlank blank) :
    value? (fuel + 1) ('[' :: (blank ++ ']' :: rest)) = some (.array [], rest) := by
  rw [value?, skipSpace_cons (by decide)]
  simp [skipSpace_append h, skipSpace_cons (show isSpace ']' = false by decide)]

/-- Between brackets that hold something there are items. -/
theorem value?_items {items : List Json} (hhead : c ≠ ']') (hskip : skipSpace text = c :: more)
    (hitems : items? fuel (c :: more) = some (items, rest)) :
    value? (fuel + 1) ('[' :: text) = some (.array items, rest) := by
  rw [value?, skipSpace_cons (by decide)]
  simp [hskip, hhead, hitems]

theorem value?_emptyObject {blank : List Char} (h : IsBlank blank) :
    value? (fuel + 1) ('\x7b' :: (blank ++ '\x7d' :: rest)) = some (.object [], rest) := by
  rw [value?, skipSpace_cons (by decide)]
  simp [skipSpace_append h, skipSpace_cons (show isSpace '\x7d' = false by decide)]

/-- Between braces that hold something there are members. -/
theorem value?_members {member : Option String × Json} {members : List (Option String × Json)}
    {after : List Char} (hmember : ReadsMember fuel text member after)
    (hmembers : members? (fuel + 1) text = some (members, rest)) :
    value? (fuel + 2) ('\x7b' :: text) = some (.object members, rest) := by
  obtain ⟨name, -, -, htext, -⟩ := hmember
  have hname : members? (fuel + 1) ('"' :: name) = some (members, rest) := by
    rw [← hmembers, members?, members?, htext, skipSpace_cons (by decide)]
  rw [value?, skipSpace_cons (by decide)]
  simp [htext, hname]

end

mutual

theorem Written.read {fuel : Nat} {text rest : List Char} {j : Json} (h : Written j text)
    (hfuel : text.length ≤ fuel) (hrest : EndsNumber rest) :
    value? fuel (text ++ rest) = some (j, rest) := by
  -- the text of a part is shorter by the bracket before it, which pays for the call that reads it
  have hpos := h.length_pos
  obtain ⟨fuel, rfl⟩ : ∃ f, fuel = f + 1 := ⟨fuel - 1, by omega⟩
  match h with
  | .null => rfl
  | .isTrue => rfl
  | .isFalse => rfl
  | .number hnumeral => exact value?_numeral hnumeral hrest
  | .string hspelled => simpa using value?_literal hspelled
  | .emptyArray hblank => simpa using value?_emptyArray hblank
  | @Written.array blank item text items more hblank hitem hmore =>
    have hitemPos := hitem.length_pos
    have hmorePos := hmore.endsPart.length_pos
    simp only [List.cons_append, List.length_append, List.length_cons] at hfuel
    obtain ⟨fuel, rfl⟩ : ∃ f, fuel = f + 1 := ⟨fuel - 1, by omega⟩
    have hread : value? fuel (text ++ (more ++ rest)) = some (item, more ++ rest) :=
      Written.read hitem (by omega) hmore.endsPart.endsNumber
    have hitems := WrittenItems.read hmore (by omega) hread
    obtain ⟨c, _, rfl, hspace, hclose⟩ := hitem.head
    simp only [List.cons_append, List.append_assoc] at hitems ⊢
    refine value?_items hclose ?_ hitems
    rw [skipSpace_append hblank, skipSpace_cons hspace]
  | .emptyObject hblank => simpa using value?_emptyObject hblank
  | @Written.object key name value text members more hkey hvalue hmore =>
    have hvaluePos := hvalue.length_pos
    have hmorePos := hmore.endsPart.length_pos
    simp only [List.cons_append, List.length_append, List.length_cons] at hfuel
    obtain ⟨fuel, rfl⟩ : ∃ f, fuel = f + 1 := ⟨fuel - 1, by omega⟩
    have hread : value? fuel (text ++ (more ++ rest)) = some (value, more ++ rest) :=
      Written.read hvalue (by omega) hmore.endsPart.endsNumber
    have hmember := hkey.readsMember hread
    simpa using value?_members hmember (WrittenMembers.read hmore (by omega) hmember)

theorem WrittenItems.read {fuel : Nat} {text more rest : List Char} {item : Json}
    {items : List Json} (h : WrittenItems items more) (hfuel : more.length ≤ fuel)
    (hitem : value? fuel text = some (item, more ++ rest)) :
    items? (fuel + 1) text = some (item :: items, rest) := by
  match h with
  | .close hblank =>
    refine items?_close hitem ?_
    rw [List.append_assoc, skipSpace_append hblank]
    exact skipSpace_cons (by decide)
  | @WrittenItems.next before blank next text _ more hbefore hblank hnext hmore =>
    simp only [List.length_append, List.length_cons] at hfuel
    obtain ⟨fuel, rfl⟩ : ∃ f, fuel = f + 1 := ⟨fuel - 1, by omega⟩
    have hread : value? fuel (text ++ (more ++ rest)) = some (next, more ++ rest) :=
      Written.read hnext (by omega) hmore.endsPart.endsNumber
    rw [← value?_append hblank] at hread
    refine items?_next hitem ?_ (WrittenItems.read hmore (by omega) hread)
    simp only [List.append_assoc, List.cons_append]
    rw [skipSpace_append hbefore, skipSpace_cons (by decide)]

theorem WrittenMembers.read {fuel : Nat} {text more rest : List Char}
    {member : Option String × Json} {members : List (Option String × Json)}
    (h : WrittenMembers members more) (hfuel : more.length ≤ fuel)
    (hmember : ReadsMember fuel text member (more ++ rest)) :
    members? (fuel + 1) text = some (member :: members, rest) := by
  match h with
  | .close hblank =>
    refine members?_close hmember ?_
    rw [List.append_assoc, skipSpace_append hblank]
    exact skipSpace_cons (by decide)
  | @WrittenMembers.next before key name value text _ more hbefore hkey hvalue hmore =>
    simp only [List.length_append, List.length_cons] at hfuel
    obtain ⟨fuel, rfl⟩ : ∃ f, fuel = f + 1 := ⟨fuel - 1, by omega⟩
    have hread : value? fuel (text ++ (more ++ rest)) = some (value, more ++ rest) :=
      Written.read hvalue (by omega) hmore.endsPart.endsNumber
    have hnext := hkey.readsMember hread
    refine members?_next hmember ?_ (WrittenMembers.read hmore (by omega) hnext)
    simp only [List.append_assoc, List.cons_append]
    rw [skipSpace_append hbefore, skipSpace_cons (by decide)]

end

/-- A text with white space around it is read as the value it spells. -/
theorem parse?_written {text before after : List Char} {j : Json} (h : Written j text)
    (hbefore : IsBlank before) (hafter : IsBlank after) :
    parse? (before ++ text ++ after) = some j := by
  have hends : EndsNumber after := by
    simpa using EndsNumber.nil.blank_append hafter
  have hlength : text.length ≤ 2 * (before ++ (text ++ after)).length + 2 := by
    simp only [List.length_append]
    omega
  have hread := (value?_append hbefore).trans (h.read hlength hends)
  rw [List.append_assoc, parse?, hread]
  simp [skipSpace_blank hafter]

end EngineTrials.Json
