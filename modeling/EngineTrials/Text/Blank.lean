/-! Blank space in a text: the spaces and tabs within a line, and Unicode's white space. -/

namespace EngineTrials.Text

def isBlank (c : Char) : Bool := c == ' ' || c == '\t'

def isWhite (c : Char) : Bool :=
  let n := c.toNat
  (9 ≤ n && n ≤ 13) || n == 0x20 || n == 0x85 || n == 0xA0 || n == 0x1680 ||
    (0x2000 ≤ n && n ≤ 0x200A) || n == 0x2028 || n == 0x2029 || n == 0x202F || n == 0x205F ||
    n == 0x3000

/-- The text after its leading spaces and tabs. -/
def skipBlanks (text : List Char) : List Char := text.dropWhile isBlank

def skipWhite (text : List Char) : List Char := text.dropWhile isWhite

/-- The text without the characters at its end that satisfy `p`. -/
def dropEndWhile (p : Char → Bool) (text : List Char) : List Char :=
  (text.reverse.dropWhile p).reverse

/-- The text without white space at either end. -/
def trim (text : List Char) : List Char := dropEndWhile isWhite (skipWhite text)

def trimmed (s : String) : String := String.ofList (trim s.toList)

theorem isWhite_of_isBlank {c : Char} (h : isBlank c = true) : isWhite c = true := by
  simp only [isBlank, Bool.or_eq_true, beq_iff_eq] at h
  rcases h with rfl | rfl <;> decide

end EngineTrials.Text
