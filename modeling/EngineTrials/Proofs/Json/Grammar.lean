import EngineTrials.Json.Reader

/-! The texts that spell a JSON value: white space may stand between any two parts, and a character
of a string may be written as itself or by any of its escapes. -/

namespace EngineTrials.Json

/-- White space only. -/
def IsBlank (text : List Char) : Prop := ∀ c ∈ text, isSpace c = true

theorem isBlank_nil : IsBlank [] := List.forall_mem_nil _

theorem isSpace_iff {c : Char} :
    isSpace c = true ↔ c = ' ' ∨ c = '\t' ∨ c = '\n' ∨ c = '\r' := by
  simp [isSpace, or_assoc]

/-- One or more digits. -/
def IsDigits (text : List Char) : Prop := text ≠ [] ∧ ∀ c ∈ text, c.isDigit = true

/-- The whole part of a number. -/
inductive IsWhole : List Char → Prop
  | zero : IsWhole ['0']
  | digits {text} (hdigits : IsDigits text) (hhead : text.head? ≠ some '0') : IsWhole text

/-- The fraction of a number, which may be missing. -/
inductive IsFraction : List Char → Prop
  | none : IsFraction []
  | some {digits} (hdigits : IsDigits digits) : IsFraction ('.' :: digits)

/-- The exponent of a number, which may be missing. -/
inductive IsExponent : List Char → Prop
  | none : IsExponent []
  | some {letter sign digits} (hletter : letter = 'e' ∨ letter = 'E')
    (hsign : sign = [] ∨ sign = ['+'] ∨ sign = ['-']) (hdigits : IsDigits digits) :
    IsExponent (letter :: sign ++ digits)

/-- The text of a number. -/
inductive IsNumeral : List Char → Prop
  | mk {sign whole fraction exponent} (hsign : sign = [] ∨ sign = ['-']) (hwhole : IsWhole whole)
    (hfraction : IsFraction fraction) (hexponent : IsExponent exponent) :
    IsNumeral (sign ++ whole ++ fraction ++ exponent)

/-- The spellings of a character in a string. -/
inductive SpelledChar : Char → List Char → Prop
  | itself {c} (hquote : c ≠ '"') (hbackslash : c ≠ '\\') (hcontrol : 0x20 ≤ c.toNat) :
    SpelledChar c [c]
  | letter {c letter} (hletter : shortEscape? letter = some c) : SpelledChar c ['\\', letter]
  | code {c h₁ h₂ h₃ h₄} (hcode : hexValue4? h₁ h₂ h₃ h₄ = some c.toNat) :
    SpelledChar c ['\\', 'u', h₁, h₂, h₃, h₄]
  /-- A character that does not fit in four digits, as two surrogates. -/
  | pair {c high low h₁ h₂ h₃ h₄ l₁ l₂ l₃ l₄} (hhigh : hexValue4? h₁ h₂ h₃ h₄ = some high)
    (hlow : hexValue4? l₁ l₂ l₃ l₄ = some low) (hisHigh : isHighSurrogate high = true)
    (hisLow : isLowSurrogate low = true)
    (hc : c.toNat = 0x10000 + (high - 0xD800) * 0x400 + (low - 0xDC00)) :
    SpelledChar c ['\\', 'u', h₁, h₂, h₃, h₄, '\\', 'u', l₁, l₂, l₃, l₄]

/-- The spellings of a text in a string, without the quotes. -/
inductive Spelled : List Char → List Char → Prop
  | nil : Spelled [] []
  | cons {c spelling text more} (hchar : SpelledChar c spelling) (hmore : Spelled text more) :
    Spelled (c :: text) (spelling ++ more)

/-- The texts of the name of a member, with white space on both sides and the colon. -/
inductive WrittenKey : Option String → List Char → Prop
  | mk {before key spelling between after} (hbefore : IsBlank before)
    (hkey : Spelled key.toList spelling) (hbetween : IsBlank between) (hafter : IsBlank after) :
    WrittenKey (some key) (before ++ '"' :: spelling ++ '"' :: between ++ ':' :: after)

mutual

/-- The texts of a value, without white space around it. -/
inductive Written : Json → List Char → Prop
  | null : Written .null ['n', 'u', 'l', 'l']
  | isTrue : Written (.bool true) ['t', 'r', 'u', 'e']
  | isFalse : Written (.bool false) ['f', 'a', 'l', 's', 'e']
  | number {numeral} (hnumeral : IsNumeral numeral.toList) :
    Written (.number numeral) numeral.toList
  | string {text spelling} (htext : Spelled text.toList spelling) :
    Written (.string (some text)) ('"' :: spelling ++ ['"'])
  | emptyArray {blank} (hblank : IsBlank blank) : Written (.array []) ('[' :: blank ++ [']'])
  | array {blank item text rest more} (hblank : IsBlank blank) (hitem : Written item text)
    (hrest : WrittenItems rest more) :
    Written (.array (item :: rest)) ('[' :: blank ++ text ++ more)
  | emptyObject {blank} (hblank : IsBlank blank) :
    Written (.object []) ('\x7b' :: blank ++ ['\x7d'])
  | object {key name value text rest more} (hkey : WrittenKey key name)
    (hvalue : Written value text) (hrest : WrittenMembers rest more) :
    Written (.object ((key, value) :: rest)) ('\x7b' :: name ++ text ++ more)

/-- The texts of the further items of an array, from the end of an item to the closing bracket. -/
inductive WrittenItems : List Json → List Char → Prop
  | close {blank} (hblank : IsBlank blank) : WrittenItems [] (blank ++ [']'])
  | next {before blank item text rest more} (hbefore : IsBlank before) (hblank : IsBlank blank)
    (hitem : Written item text) (hrest : WrittenItems rest more) :
    WrittenItems (item :: rest) (before ++ ',' :: blank ++ text ++ more)

/-- The texts of the further members of an object, from the end of a value to the closing brace. -/
inductive WrittenMembers : List (Option String × Json) → List Char → Prop
  | close {blank} (hblank : IsBlank blank) : WrittenMembers [] (blank ++ ['\x7d'])
  | next {before key name value text rest more} (hbefore : IsBlank before)
    (hkey : WrittenKey key name) (hvalue : Written value text) (hrest : WrittenMembers rest more) :
    WrittenMembers ((key, value) :: rest) (before ++ ',' :: name ++ text ++ more)

end

end EngineTrials.Json
