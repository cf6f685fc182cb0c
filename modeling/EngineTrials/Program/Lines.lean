import EngineTrials.Text.Search

/-! Lines as JavaScript counts them: they end in a line feed, a carriage return, both together, or
one of Unicode's two separators. -/

namespace EngineTrials.ScriptText

def isTerminator (c : Char) : Bool :=
  c == '\n' || c == '\r' || c == '\u2028' || c == '\u2029'

/-- Whether a text ends in a line terminator. -/
def endsInTerminator (text : List Char) : Bool := (text.getLast?.map isTerminator).getD false

/-- The number of line terminators; a carriage return with a line feed is one. -/
def terminatorCount : List Char → Nat
  | [] => 0
  | '\r' :: '\n' :: rest => terminatorCount rest + 1
  | c :: rest => if isTerminator c then terminatorCount rest + 1 else terminatorCount rest

/-- The number of lines that a text takes up once its last line is terminated. -/
def lineCount (text : List Char) : Nat :=
  if endsInTerminator text then terminatorCount text else terminatorCount text + 1

/-- The pieces between line terminators, as splitting the text there gives them. -/
def pieces : List Char → List (List Char)
  | [] => [[]]
  | '\r' :: '\n' :: rest => [] :: pieces rest
  | c :: rest =>
    if isTerminator c then [] :: pieces rest
    else
      match pieces rest with
      | [] => [[c]]
      | first :: others => (c :: first) :: others

end EngineTrials.ScriptText
