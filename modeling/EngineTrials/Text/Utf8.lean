/-! UTF-8: a byte string is read as characters and ill-formed parts; a strict reading wants no
ill-formed part, and a lenient one puts U+FFFD in the place of each. -/

namespace EngineTrials.Text.Utf8

/-- A part of a byte string: a character, or a longest part that starts no character. -/
inductive Part
  | char (c : Char)
  | ill
  deriving DecidableEq, Repr

def isTail (b : UInt8) : Bool := 0x80 ≤ b && b ≤ 0xBF

/-- A byte that may come second after the first byte of a three-byte character. -/
def isSecondOfThree (first second : UInt8) : Bool :=
  if first = 0xE0 then 0xA0 ≤ second && second ≤ 0xBF
  else if first = 0xED then 0x80 ≤ second && second ≤ 0x9F
  else isTail second

/-- A byte that may come second after the first byte of a four-byte character. -/
def isSecondOfFour (first second : UInt8) : Bool :=
  if first = 0xF0 then 0x90 ≤ second && second ≤ 0xBF
  else if first = 0xF4 then 0x80 ≤ second && second ≤ 0x8F
  else isTail second

/-- The low six bits of a byte that continues a character. -/
def payload (b : UInt8) : Nat := b.toNat % 64

def parts : List UInt8 → List Part
  | [] => []
  | a :: rest =>
    if a ≤ 0x7F then .char (Char.ofNat a.toNat) :: parts rest
    else if 0xC2 ≤ a && a ≤ 0xDF then
      match rest with
      | [] => [.ill]
      | b :: rest2 =>
        if isTail b then .char (Char.ofNat ((a.toNat % 32) * 64 + payload b)) :: parts rest2
        else .ill :: parts (b :: rest2)
    else if 0xE0 ≤ a && a ≤ 0xEF then
      match rest with
      | [] => [.ill]
      | b :: rest2 =>
        if isSecondOfThree a b then
          match rest2 with
          | [] => [.ill]
          | c :: rest3 =>
            if isTail c then
              .char (Char.ofNat (((a.toNat % 16) * 64 + payload b) * 64 + payload c)) ::
                parts rest3
            else .ill :: parts (c :: rest3)
        else .ill :: parts (b :: rest2)
    else if 0xF0 ≤ a && a ≤ 0xF4 then
      match rest with
      | [] => [.ill]
      | b :: rest2 =>
        if isSecondOfFour a b then
          match rest2 with
          | [] => [.ill]
          | c :: rest3 =>
            if isTail c then
              match rest3 with
              | [] => [.ill]
              | d :: rest4 =>
                if isTail d then
                  .char (Char.ofNat
                    ((((a.toNat % 8) * 64 + payload b) * 64 + payload c) * 64 + payload d)) ::
                    parts rest4
                else .ill :: parts (d :: rest4)
            else .ill :: parts (c :: rest3)
        else .ill :: parts (b :: rest2)
    else .ill :: parts rest

/-- The characters of a list of parts, if none of them is ill-formed. -/
def allChars? : List Part → Option (List Char)
  | [] => some []
  | .char c :: rest => (allChars? rest).map (c :: ·)
  | .ill :: _ => none

def decode? (bytes : List UInt8) : Option (List Char) := allChars? (parts bytes)

/-- The character shown for a part: itself, or U+FFFD for an ill-formed part. -/
def Part.shown : Part → Char
  | .char c => c
  | .ill => '\uFFFD'

/-- The text of any bytes, with U+FFFD in the place of each ill-formed part. -/
def decodeLenient (bytes : List UInt8) : List Char := (parts bytes).map Part.shown

def encode (text : List Char) : List UInt8 := text.flatMap String.utf8EncodeChar

end EngineTrials.Text.Utf8
