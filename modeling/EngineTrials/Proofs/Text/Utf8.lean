import EngineTrials.Text.Utf8
import Mathlib.Tactic.SplitIfs

/-! Reading bytes part by part. A part is a character, or the bytes at the start of one as far as
they go. A line feed is never among the bytes of another part, so whatever stands before it is read
without regard to what comes after it. Bytes that make characters only are those that encode these
characters. -/

namespace EngineTrials.Text.Utf8

def isLeadOfTwo (a : UInt8) : Bool := 0xC2 ≤ a && a ≤ 0xDF

def isLeadOfThree (a : UInt8) : Bool := 0xE0 ≤ a && a ≤ 0xEF

def isLeadOfFour (a : UInt8) : Bool := 0xF0 ≤ a && a ≤ 0xF4

/-- Bytes that make no character: one that starts none, or the first ones of a character that
`goesOn` with none of the bytes that may come next. -/
inductive Broken : List UInt8 → (UInt8 → Bool) → Prop
  | stray {a} (hone : ¬ a ≤ 0x7F) (htwo : isLeadOfTwo a = false) (hthree : isLeadOfThree a = false)
    (hfour : isLeadOfFour a = false) : Broken [a] fun _ => false
  | two {a} (ha : isLeadOfTwo a = true) : Broken [a] isTail
  | three {a} (ha : isLeadOfThree a = true) : Broken [a] (isSecondOfThree a)
  | threeSecond {a b} (ha : isLeadOfThree a = true) (hb : isSecondOfThree a b = true) :
    Broken [a, b] isTail
  | four {a} (ha : isLeadOfFour a = true) : Broken [a] (isSecondOfFour a)
  | fourSecond {a b} (ha : isLeadOfFour a = true) (hb : isSecondOfFour a b = true) :
    Broken [a, b] isTail
  | fourThird {a b c} (ha : isLeadOfFour a = true) (hb : isSecondOfFour a b = true)
    (hc : isTail c = true) : Broken [a, b, c] isTail

/-- The first part of bytes, and the bytes after it. -/
inductive Takes : List UInt8 → Part → List UInt8 → Prop
  | one {a rest} (ha : a ≤ 0x7F) : Takes (a :: rest) (.char (Char.ofNat a.toNat)) rest
  | two {a b rest} (ha : isLeadOfTwo a = true) (hb : isTail b = true) :
    Takes (a :: b :: rest) (.char (Char.ofNat ((a.toNat % 32) * 64 + payload b))) rest
  | three {a b c rest} (ha : isLeadOfThree a = true) (hb : isSecondOfThree a b = true)
    (hc : isTail c = true) :
    Takes (a :: b :: c :: rest)
      (.char (Char.ofNat (((a.toNat % 16) * 64 + payload b) * 64 + payload c))) rest
  | four {a b c d rest} (ha : isLeadOfFour a = true) (hb : isSecondOfFour a b = true)
    (hc : isTail c = true) (hd : isTail d = true) :
    Takes (a :: b :: c :: d :: rest)
      (.char (Char.ofNat ((((a.toNat % 8) * 64 + payload b) * 64 + payload c) * 64 + payload d)))
      rest
  | ill {cut goesOn rest} (hcut : Broken cut goesOn) (hrest : ∀ b ∈ rest.head?, goesOn b = false) :
    Takes (cut ++ rest) .ill rest

variable {bytes rest cut : List UInt8} {part : Part} {a : UInt8} {goesOn : UInt8 → Bool}

theorem isLeadOfTwo_iff : isLeadOfTwo a = true ↔ 0xC2 ≤ a.toNat ∧ a.toNat ≤ 0xDF := by
  simp [isLeadOfTwo, UInt8.le_iff_toNat_le]

theorem isLeadOfThree_iff : isLeadOfThree a = true ↔ 0xE0 ≤ a.toNat ∧ a.toNat ≤ 0xEF := by
  simp [isLeadOfThree, UInt8.le_iff_toNat_le]

theorem isLeadOfFour_iff : isLeadOfFour a = true ↔ 0xF0 ≤ a.toNat ∧ a.toNat ≤ 0xF4 := by
  simp [isLeadOfFour, UInt8.le_iff_toNat_le]

theorem le_7F_iff : a ≤ 0x7F ↔ a.toNat ≤ 0x7F := UInt8.le_iff_toNat_le

theorem isTail_iff : isTail a = true ↔ 0x80 ≤ a.toNat ∧ a.toNat ≤ 0xBF := by
  simp [isTail, UInt8.le_iff_toNat_le]

theorem parts_one (h : a ≤ 0x7F) : parts (a :: rest) = .char (Char.ofNat a.toNat) :: parts rest := by
  rw [parts.eq_def]
  exact if_pos h

theorem parts_two (h : isLeadOfTwo a = true) : parts (a :: rest) =
    match rest with
    | [] => [.ill]
    | b :: rest2 =>
      if isTail b then .char (Char.ofNat ((a.toNat % 32) * 64 + payload b)) :: parts rest2
      else .ill :: parts (b :: rest2) := by
  have hone : ¬ a ≤ 0x7F := by
    rw [isLeadOfTwo_iff] at h
    rw [le_7F_iff]
    omega
  rw [parts.eq_def]
  exact (if_neg hone).trans (if_pos h)

theorem parts_three (h : isLeadOfThree a = true) : parts (a :: rest) =
    match rest with
    | [] => [.ill]
    | b :: rest2 =>
      if isSecondOfThree a b then
        match rest2 with
        | [] => [.ill]
        | c :: rest3 =>
          if isTail c then
            .char (Char.ofNat (((a.toNat % 16) * 64 + payload b) * 64 + payload c)) :: parts rest3
          else .ill :: parts (c :: rest3)
      else .ill :: parts (b :: rest2) := by
  have hbelow : ¬ a ≤ 0x7F ∧ ¬ isLeadOfTwo a = true := by
    rw [isLeadOfThree_iff] at h
    rw [le_7F_iff, isLeadOfTwo_iff]
    omega
  rw [parts.eq_def]
  exact (if_neg hbelow.1).trans ((if_neg hbelow.2).trans (if_pos h))

theorem parts_four (h : isLeadOfFour a = true) : parts (a :: rest) =
    match rest with
    | [] => [.ill]
    | b :: rest2 =>
      if isSecondOfFour a b then
        match rest2 with
        | [] => [.ill]
        | c :: rest3 =>
          if isTail c then
            match rest3 with
            | [] => [.ill]
            | d :: rest4 =>
              if isTail d then
                .char (Char.ofNat
                  ((((a.toNat % 8) * 64 + payload b) * 64 + payload c) * 64 + payload d)) ::
                  parts rest4
              else .ill :: parts (d :: rest4)
          else .ill :: parts (c :: rest3)
      else .ill :: parts (b :: rest2) := by
  have hbelow : ¬ a ≤ 0x7F ∧ ¬ isLeadOfTwo a = true ∧ ¬ isLeadOfThree a = true := by
    rw [isLeadOfFour_iff] at h
    rw [le_7F_iff, isLeadOfTwo_iff, isLeadOfThree_iff]
    omega
  rw [parts.eq_def]
  exact (if_neg hbelow.1).trans
    ((if_neg hbelow.2.1).trans ((if_neg hbelow.2.2).trans (if_pos h)))

theorem parts_stray (hone : ¬ a ≤ 0x7F) (htwo : isLeadOfTwo a = false)
    (hthree : isLeadOfThree a = false) (hfour : isLeadOfFour a = false) :
    parts (a :: rest) = .ill :: parts rest := by
  rw [parts.eq_def]
  exact (if_neg hone).trans ((if_neg (Bool.eq_false_iff.1 htwo)).trans
    ((if_neg (Bool.eq_false_iff.1 hthree)).trans (if_neg (Bool.eq_false_iff.1 hfour))))

theorem parts_nil : parts [] = [] := by rw [parts.eq_def]

/-- Broken bytes are read as one part. -/
theorem Broken.parts_append (h : Broken cut goesOn) (hrest : ∀ b ∈ rest.head?, goesOn b = false) :
    parts (cut ++ rest) = .ill :: parts rest := by
  cases h with
  | stray hone htwo hthree hfour => exact parts_stray hone htwo hthree hfour
  | two ha =>
    cases rest with
    | nil => simp [parts_two ha, parts_nil]
    | cons b rest => simp [parts_two ha, hrest b rfl]
  | three ha =>
    cases rest with
    | nil => simp [parts_three ha, parts_nil]
    | cons b rest => simp [parts_three ha, hrest b rfl]
  | threeSecond ha hb =>
    cases rest with
    | nil => simp [parts_three ha, hb, parts_nil]
    | cons c rest => simp [parts_three ha, hb, hrest c rfl]
  | four ha =>
    cases rest with
    | nil => simp [parts_four ha, parts_nil]
    | cons b rest => simp [parts_four ha, hrest b rfl]
  | fourSecond ha hb =>
    cases rest with
    | nil => simp [parts_four ha, hb, parts_nil]
    | cons c rest => simp [parts_four ha, hb, hrest c rfl]
  | fourThird ha hb hc =>
    cases rest with
    | nil => simp [parts_four ha, hb, hc, parts_nil]
    | cons d rest => simp [parts_four ha, hb, hc, hrest d rfl]

theorem Takes.parts_eq (h : Takes bytes part rest) : parts bytes = part :: parts rest := by
  cases h with
  | one ha => exact parts_one ha
  | two ha hb => simp [parts_two ha, hb]
  | three ha hb hc => simp [parts_three ha, hb, hc]
  | four ha hb hc hd => simp [parts_four ha, hb, hc, hd]
  | ill hcut hrest => exact hcut.parts_append hrest

/-- Broken bytes are a part of their own, or the byte after them goes on with the character. -/
theorem Broken.takes_or (h : Broken cut goesOn) (rest : List UInt8) :
    Takes (cut ++ rest) .ill rest ∨ ∃ b more, rest = b :: more ∧ goesOn b = true := by
  cases rest with
  | nil => exact .inl (.ill h (by simp))
  | cons b more =>
    cases hb : goesOn b with
    | false => exact .inl (.ill h (by simpa using hb))
    | true => exact .inr ⟨b, more, rfl, hb⟩

theorem exists_takes (a : UInt8) (rest : List UInt8) : ∃ part more, Takes (a :: rest) part more := by
  by_cases hone : a ≤ 0x7F
  · exact ⟨_, _, .one hone⟩
  cases htwo : isLeadOfTwo a with
  | true =>
    obtain h | ⟨b, rest, rfl, hb⟩ := (Broken.two htwo).takes_or rest
    · exact ⟨_, _, h⟩
    · exact ⟨_, _, .two htwo hb⟩
  | false =>
  cases hthree : isLeadOfThree a with
  | true =>
    obtain h | ⟨b, rest, rfl, hb⟩ := (Broken.three hthree).takes_or rest
    · exact ⟨_, _, h⟩
    obtain h | ⟨c, rest, rfl, hc⟩ := (Broken.threeSecond hthree hb).takes_or rest
    · exact ⟨_, _, h⟩
    · exact ⟨_, _, .three hthree hb hc⟩
  | false =>
  cases hfour : isLeadOfFour a with
  | true =>
    obtain h | ⟨b, rest, rfl, hb⟩ := (Broken.four hfour).takes_or rest
    · exact ⟨_, _, h⟩
    obtain h | ⟨c, rest, rfl, hc⟩ := (Broken.fourSecond hfour hb).takes_or rest
    · exact ⟨_, _, h⟩
    obtain h | ⟨d, rest, rfl, hd⟩ := (Broken.fourThird hfour hb hc).takes_or rest
    · exact ⟨_, _, h⟩
    · exact ⟨_, _, .four hfour hb hc hd⟩
  | false =>
    have hbroken : Broken [a] fun _ => false := .stray hone htwo hthree hfour
    exact ⟨_, _, .ill hbroken (by simp)⟩

/-! Line feeds. -/

theorem isSecondOfThree_iff {a b : UInt8} : isSecondOfThree a b = true ↔
    0x80 ≤ b.toNat ∧ b.toNat ≤ 0xBF ∧ (a.toNat = 0xE0 → 0xA0 ≤ b.toNat) ∧
      (a.toNat = 0xED → b.toNat ≤ 0x9F) := by
  have hlow : a = 0xE0 ↔ a.toNat = 0xE0 := UInt8.toNat_inj.symm
  have hhigh : a = 0xED ↔ a.toNat = 0xED := UInt8.toNat_inj.symm
  simp only [isSecondOfThree, hlow, hhigh]
  split_ifs with h h'
  · simp only [Bool.and_eq_true, decide_eq_true_eq, UInt8.le_iff_toNat_le, UInt8.reduceToNat]
    omega
  · simp only [Bool.and_eq_true, decide_eq_true_eq, UInt8.le_iff_toNat_le, UInt8.reduceToNat]
    omega
  · rw [isTail_iff]
    omega

theorem isSecondOfFour_iff {a b : UInt8} : isSecondOfFour a b = true ↔
    0x80 ≤ b.toNat ∧ b.toNat ≤ 0xBF ∧ (a.toNat = 0xF0 → 0x90 ≤ b.toNat) ∧
      (a.toNat = 0xF4 → b.toNat ≤ 0x8F) := by
  have hlow : a = 0xF0 ↔ a.toNat = 0xF0 := UInt8.toNat_inj.symm
  have hhigh : a = 0xF4 ↔ a.toNat = 0xF4 := UInt8.toNat_inj.symm
  simp only [isSecondOfFour, hlow, hhigh]
  split_ifs with h h'
  · simp only [Bool.and_eq_true, decide_eq_true_eq, UInt8.le_iff_toNat_le, UInt8.reduceToNat]
    omega
  · simp only [Bool.and_eq_true, decide_eq_true_eq, UInt8.le_iff_toNat_le, UInt8.reduceToNat]
    omega
  · rw [isTail_iff]
    omega

/-- No character goes on with a line feed. -/
theorem Broken.not_goesOn (h : Broken cut goesOn) : goesOn 10 = false := by
  have htail : isTail 10 = false := by decide
  cases h with
  | stray => rfl
  | two | threeSecond | fourSecond | fourThird => exact htail
  | three _ =>
    refine Bool.eq_false_iff.2 fun hsecond => ?_
    exact absurd (isSecondOfThree_iff.1 hsecond).1 (by decide)
  | four _ =>
    refine Bool.eq_false_iff.2 fun hsecond => ?_
    exact absurd (isSecondOfFour_iff.1 hsecond).1 (by decide)

theorem Takes.append_lineFeed (h : Takes bytes part rest) (after : List UInt8) :
    Takes (bytes ++ 10 :: after) part (rest ++ 10 :: after) := by
  cases h with
  | one ha => exact .one ha
  | two ha hb => exact .two ha hb
  | three ha hb hc => exact .three ha hb hc
  | four ha hb hc hd => exact .four ha hb hc hd
  | ill hcut hrest =>
    rw [List.append_assoc]
    refine .ill hcut ?_
    cases rest with
    | nil => simpa using hcut.not_goesOn
    | cons b rest => exact hrest

theorem Takes.suffix (h : Takes bytes part rest) : ∃ cut, cut ≠ [] ∧ bytes = cut ++ rest := by
  cases h with
  | one => exact ⟨[_], by simp, rfl⟩
  | two => exact ⟨[_, _], by simp, rfl⟩
  | three => exact ⟨[_, _, _], by simp, rfl⟩
  | four => exact ⟨[_, _, _, _], by simp, rfl⟩
  | ill hcut _ => exact ⟨_, by cases hcut <;> simp, rfl⟩

theorem Takes.length_lt (h : Takes bytes part rest) : rest.length < bytes.length := by
  obtain ⟨cut, hne, rfl⟩ := h.suffix
  have := List.length_pos_iff.2 hne
  rw [List.length_append]
  omega

/-- Bytes are read part by part. -/
theorem parts_induction {motive : List UInt8 → Prop} (nil : motive [])
    (takes : ∀ {bytes part rest}, Takes bytes part rest → motive rest → motive bytes)
    (bytes : List UInt8) : motive bytes := by
  induction hlength : bytes.length using Nat.strongRecOn generalizing bytes with
  | _ n ih =>
    cases bytes with
    | nil => exact nil
    | cons a rest =>
      obtain ⟨part, more, h⟩ := exists_takes a rest
      exact takes h (ih _ (hlength ▸ h.length_lt) more rfl)

theorem parts_append_lineFeed (before after : List UInt8) :
    parts (before ++ 10 :: after) = parts before ++ .char '\n' :: parts after := by
  induction before using parts_induction with
  | nil =>
    rw [parts_nil]
    exact parts_one (by decide)
  | takes h ih => rw [(h.append_lineFeed after).parts_eq, h.parts_eq, ih, List.cons_append]

theorem toNat_ofNat {n : Nat} (h : n.isValidChar) : (Char.ofNat n).toNat = n := by
  rw [Char.ofNat, dif_pos h]
  rfl

theorem ofNat_ne_lineFeed {n : Nat} (h : 0x80 ≤ n) : Char.ofNat n ≠ '\n' := by
  intro heq
  by_cases hvalid : n.isValidChar
  · have hcode : (Char.ofNat n).toNat = 10 := congrArg Char.toNat heq
    rw [toNat_ofNat hvalid] at hcode
    omega
  · rw [Char.ofNat, dif_neg hvalid] at heq
    exact absurd heq (by decide)

/-- Only the byte of a line feed is shown as one. -/
theorem Takes.eq_lineFeed (h : Takes bytes part rest) (hshown : part.shown = '\n') : 10 ∈ bytes := by
  cases h with
  | @one a rest ha =>
    rw [le_7F_iff] at ha
    have hcode : (Char.ofNat a.toNat).toNat = 10 := congrArg Char.toNat hshown
    rw [toNat_ofNat (.inl (by omega))] at hcode
    obtain rfl : 10 = a := UInt8.toNat_inj.1 hcode.symm
    exact List.mem_cons_self
  | two ha hb =>
    rw [isLeadOfTwo_iff] at ha
    exact absurd hshown (ofNat_ne_lineFeed (by omega))
  | three ha hb hc =>
    rw [isLeadOfThree_iff] at ha
    have hsecond := isSecondOfThree_iff.1 hb
    refine absurd hshown (ofNat_ne_lineFeed ?_)
    unfold payload
    omega
  | four ha hb hc hd =>
    rw [isLeadOfFour_iff] at ha
    have hsecond := isSecondOfFour_iff.1 hb
    refine absurd hshown (ofNat_ne_lineFeed ?_)
    unfold payload
    omega
  | ill => exact absurd hshown (by decide)

theorem lineFeed_not_mem_decodeLenient {bytes : List UInt8} (h : 10 ∉ bytes) :
    '\n' ∉ decodeLenient bytes := by
  unfold decodeLenient
  induction bytes using parts_induction with
  | nil => simp [parts_nil]
  | takes htakes ih =>
    rw [htakes.parts_eq, List.map_cons, List.mem_cons, not_or]
    refine ⟨fun hshown => h (htakes.eq_lineFeed hshown.symm), ih fun hrest => h ?_⟩
    obtain ⟨cut, -, rfl⟩ := htakes.suffix
    exact List.mem_append_right cut hrest

theorem decodeLenient_append_lineFeed (before after : List UInt8) :
    decodeLenient (before ++ 10 :: after) =
      decodeLenient before ++ '\n' :: decodeLenient after := by
  rw [decodeLenient, parts_append_lineFeed, List.map_append, List.map_cons]
  rfl

theorem decodeLenient_ne_nil {bytes : List UInt8} (h : bytes ≠ []) : decodeLenient bytes ≠ [] := by
  obtain ⟨a, rest, rfl⟩ := List.exists_cons_of_ne_nil h
  obtain ⟨part, more, htakes⟩ := exists_takes a rest
  rw [decodeLenient, htakes.parts_eq, List.map_cons]
  exact List.cons_ne_nil _ _

/-! Characters that have been encoded. -/

theorem takes_utf8EncodeChar (c : Char) (rest : List UInt8) :
    Takes (String.utf8EncodeChar c ++ rest) (.char c) rest := by
  have hvalid : c.toNat < 0xD800 ∨ 0xDFFF < c.toNat ∧ c.toNat < 0x110000 := c.valid
  have heq : ∀ {n bytes}, n = c.toNat → Takes bytes (.char (Char.ofNat n)) rest →
      Takes bytes (.char c) rest := by
    rintro _ bytes rfl h
    rwa [Char.ofNat_toNat] at h
  have hval : c.val.toNat = c.toNat := rfl
  simp only [String.utf8EncodeChar, hval]
  split_ifs with hone htwo hthree
  · refine heq ?_ (.one ?_)
    · simp only [UInt8.toNat_ofNat']
      omega
    · rw [le_7F_iff]
      simp only [UInt8.toNat_ofNat']
      omega
  · refine heq ?_ (.two ?_ ?_)
    · simp only [payload, UInt8.toNat_ofNat']
      omega
    · rw [isLeadOfTwo_iff]
      simp only [UInt8.toNat_ofNat']
      omega
    · rw [isTail_iff]
      simp only [UInt8.toNat_ofNat']
      omega
  · refine heq ?_ (.three ?_ ?_ ?_)
    · simp only [payload, UInt8.toNat_ofNat']
      omega
    · rw [isLeadOfThree_iff]
      simp only [UInt8.toNat_ofNat']
      omega
    · rw [isSecondOfThree_iff]
      simp only [UInt8.toNat_ofNat']
      omega
    · rw [isTail_iff]
      simp only [UInt8.toNat_ofNat']
      omega
  · refine heq ?_ (.four ?_ ?_ ?_ ?_)
    · simp only [payload, UInt8.toNat_ofNat']
      omega
    · rw [isLeadOfFour_iff]
      simp only [UInt8.toNat_ofNat']
      omega
    · rw [isSecondOfFour_iff]
      simp only [UInt8.toNat_ofNat']
      omega
    · rw [isTail_iff]
      simp only [UInt8.toNat_ofNat']
      omega
    · rw [isTail_iff]
      simp only [UInt8.toNat_ofNat']
      omega

theorem decodeLenient_encode (text : List Char) : decodeLenient (encode text) = text := by
  unfold decodeLenient
  induction text with
  | nil => exact congrArg (List.map Part.shown) parts_nil
  | cons c text ih =>
    rw [encode, List.flatMap_cons, (takes_utf8EncodeChar c _).parts_eq, List.map_cons]
    exact congrArg (c :: ·) ih

theorem utf8EncodeChar_ofNat {n : Nat} (h : n.isValidChar) : String.utf8EncodeChar (Char.ofNat n) =
    if n ≤ 127 then [UInt8.ofNat n]
    else if n ≤ 2047 then [UInt8.ofNat (n / 64 % 32 + 192), UInt8.ofNat (n % 64 + 128)]
    else if n ≤ 65535 then [UInt8.ofNat (n / 4096 % 16 + 224), UInt8.ofNat (n / 64 % 64 + 128),
      UInt8.ofNat (n % 64 + 128)]
    else [UInt8.ofNat (n / 262144 % 8 + 240), UInt8.ofNat (n / 4096 % 64 + 128),
      UInt8.ofNat (n / 64 % 64 + 128), UInt8.ofNat (n % 64 + 128)] := by
  have hval : (Char.ofNat n).val.toNat = n := toNat_ofNat h
  simp only [String.utf8EncodeChar, hval]

theorem ofNat_eq (a : UInt8) {n : Nat} (h : a.toNat = n % 256) : UInt8.ofNat n = a := by
  rw [← UInt8.toNat_inj, UInt8.toNat_ofNat', h]

/-- The bytes that are read as a character are those that encode it. -/
theorem Takes.eq_utf8EncodeChar {c : Char} (h : Takes bytes (.char c) rest) :
    bytes = String.utf8EncodeChar c ++ rest := by
  cases h with
  | @one a _ ha =>
    rw [le_7F_iff] at ha
    rw [utf8EncodeChar_ofNat (.inl (by omega)), if_pos ha, ofNat_eq a (by omega)]
    rfl
  | @two a b _ ha hb =>
    rw [isLeadOfTwo_iff] at ha
    rw [isTail_iff] at hb
    unfold payload
    rw [utf8EncodeChar_ofNat (.inl (by omega)), if_neg (by omega), if_pos (by omega),
      ofNat_eq a (by omega), ofNat_eq b (by omega)]
    rfl
  | @three a b c _ ha hb hc =>
    rw [isLeadOfThree_iff] at ha
    rw [isSecondOfThree_iff] at hb
    rw [isTail_iff] at hc
    unfold payload
    -- the second byte keeps the number out of the surrogates
    rw [utf8EncodeChar_ofNat (by unfold Nat.isValidChar; omega), if_neg (by omega),
      if_neg (by omega), if_pos (by omega), ofNat_eq a (by omega), ofNat_eq b (by omega),
      ofNat_eq c (by omega)]
    rfl
  | @four a b c d _ ha hb hc hd =>
    rw [isLeadOfFour_iff] at ha
    rw [isSecondOfFour_iff] at hb
    rw [isTail_iff] at hc hd
    unfold payload
    rw [utf8EncodeChar_ofNat (.inr (by omega)), if_neg (by omega), if_neg (by omega),
      if_neg (by omega), ofNat_eq a (by omega), ofNat_eq b (by omega), ofNat_eq c (by omega),
      ofNat_eq d (by omega)]
    rfl

theorem decode?_encode (text : List Char) : decode? (encode text) = some text := by
  unfold decode?
  induction text with
  | nil => exact congrArg allChars? parts_nil
  | cons c text ih =>
    rw [encode, List.flatMap_cons, (takes_utf8EncodeChar c _).parts_eq, allChars?]
    exact congrArg (Option.map (c :: ·)) ih

theorem eq_encode_of_decode? {text : List Char} (h : decode? bytes = some text) :
    bytes = encode text := by
  unfold decode? at h
  induction bytes using parts_induction generalizing text with
  | nil =>
    rw [parts_nil] at h
    obtain rfl := Option.some.inj h
    rfl
  | @takes bytes part rest htakes ih =>
    rw [htakes.parts_eq] at h
    cases part with
    | ill => simp [allChars?] at h
    | char c =>
      obtain ⟨text, htext, rfl⟩ := Option.map_eq_some_iff.1 h
      rw [htakes.eq_utf8EncodeChar, ih htext]
      rfl

/-- What can be read as text is what has been encoded. -/
theorem decode?_eq_some_iff {text : List Char} :
    decode? bytes = some text ↔ bytes = encode text :=
  ⟨eq_encode_of_decode?, fun h => h ▸ decode?_encode text⟩

end EngineTrials.Text.Utf8
