/-! Text between quotation marks on one line. -/

namespace EngineTrials.Text

/-- A character that may stand between two marks `mark` on one line. -/
def isWithin (mark c : Char) : Bool := c != mark && c != '\n'

/-- The text between two double or two single quotes at the start of a text, and what follows the
second one. -/
def quoted? : List Char → Option (List Char × List Char)
  | [] => none
  | mark :: rest =>
    if mark = '"' ∨ mark = '\'' then
      match rest.dropWhile (isWithin mark) with
      | last :: after => if last = mark then some (rest.takeWhile (isWithin mark), after) else none
      | [] => none
    else none

end EngineTrials.Text
