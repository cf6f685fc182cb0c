import EngineTrials.Pattern.Basic
import EngineTrials.Text.Blank

/-! Reading a pattern. Outside classes a character stands for itself unless it is one of
`\ . + * ? ( ) | [ ] { } ^ $`; a repetition applies to what stands right before it, and there has to
be something; a question mark after a repetition changes nothing about what is selected. -/

namespace EngineTrials.Pattern

/-- What a backslash and the text after it stand for. -/
inductive Escape
  | char (c : Char)
  | set (s : CharClass)
  | anchor (a : Anchor)

/-- A character that stands for itself after a backslash. -/
def isEscapable (c : Char) : Bool :=
  c.toNat < 128 && !c.isAlphanum && c != '<' && c != '>'

/-- What a character stands for after a backslash. -/
def escape? : Char → Option Escape
  | 'd' => some (.set .digit)
  | 'D' => some (.set (.complement .digit))
  | 's' => some (.set .space)
  | 'S' => some (.set (.complement .space))
  | 'w' => some (.set .word)
  | 'W' => some (.set (.complement .word))
  | 'b' => some (.anchor .boundary)
  | 'B' => some (.anchor .noBoundary)
  | 'A' => some (.anchor .textStart)
  | 'z' => some (.anchor .textEnd)
  | 'a' => some (.char '\x07')
  | 'f' => some (.char '\x0c')
  | 't' => some (.char '\t')
  | 'n' => some (.char '\n')
  | 'r' => some (.char '\r')
  | 'v' => some (.char '\x0b')
  | c => if isEscapable c then some (.char c) else none

/-- A character, or a set that an escape stands for, inside a class. -/
def classAtom? : List Char → Option (Escape × List Char)
  | [] => none
  | '\\' :: c :: rest => (escape? c).map (·, rest)
  | '\\' :: [] => none
  | c :: rest => some (.char c, rest)

/-- The set of a character or an escape inside a class; an anchor is no set. -/
def Escape.toClass? : Escape → Option CharClass
  | .char c => some (.one c)
  | .set s => some s
  | .anchor _ => none

/-- Whether a text goes on with a dash that makes a range of what stands before it. -/
def startsRange : List Char → Bool
  | '-' :: ']' :: _ => false
  | '-' :: '-' :: _ => false
  | '-' :: _ => true
  | _ => false

/-- A character, an escape or a range inside a class. -/
def classItem? (text : List Char) : Option (CharClass × List Char) := do
  let (first, rest) ← classAtom? text
  if startsRange rest then
    let (last, rest) ← classAtom? (rest.drop 1)
    match first, last with
    | .char a, .char b => if a ≤ b then some (.range a b, rest) else none
    | _, _ => none
  else return (← first.toClass?, rest)

def namedClasses : List (String × CharClass) :=
  [("alnum", .any [.range '0' '9', .range 'A' 'Z', .range 'a' 'z']),
    ("alpha", .any [.range 'A' 'Z', .range 'a' 'z']),
    ("ascii", .range '\x00' '\x7f'),
    ("blank", .any [.one '\t', .one ' ']),
    ("cntrl", .any [.range '\x00' '\x1f', .one '\x7f']),
    ("digit", .digit),
    ("graph", .range '!' '~'),
    ("lower", .range 'a' 'z'),
    ("print", .range ' ' '~'),
    ("punct", .any [.range '!' '/', .range ':' '@', .range '[' '\x60', .range '\x7b' '~']),
    ("space", .any [.range '\t' '\r', .one ' ']),
    ("upper", .range 'A' 'Z'),
    ("word", .word),
    ("xdigit", .any [.range '0' '9', .range 'A' 'F', .range 'a' 'f'])]

/-- A named class, with or without a caret before its name, after its opening bracket. -/
def namedClass? : List Char → Option (CharClass × List Char)
  | ':' :: text =>
    let negated := text.head? = some '^'
    let text := if negated then text.drop 1 else text
    match text.dropWhile (· != ':') with
    | ':' :: ']' :: rest =>
      (namedClasses.lookup (String.ofList (text.takeWhile (· != ':')))).map fun s =>
        (if negated then .complement s else s, rest)
    | _ => none
  | _ => none

/-- The characters right after the opening bracket that stand for themselves there: any number of
dashes, or else a closing bracket. -/
def leadingLiterals (text : List Char) : CharClass × List Char :=
  match text with
  | '-' :: rest => (.one '-', rest.dropWhile (· == '-'))
  | ']' :: rest => (.one ']', rest)
  | _ => (.none, text)

/-- Reads a class up to its closing bracket. `combine` joins what the operators so far have left
with the set that is being read; `items` is that set so far. -/
def classBody? : Nat → List Char → (CharClass → CharClass) → CharClass →
    Option (CharClass × List Char)
  | 0, _, _, _ => none
  | fuel + 1, text, combine, items =>
    match text with
    | [] => none
    | ']' :: rest => some (combine items, rest)
    | '&' :: '&' :: rest => classBody? fuel rest (.inter (combine items)) .none
    | '-' :: '-' :: rest => classBody? fuel rest (.diff (combine items)) .none
    | '~' :: '~' :: rest => classBody? fuel rest (.symmDiff (combine items)) .none
    | '[' :: rest =>
      match namedClass? rest with
      | some (s, rest) => classBody? fuel rest combine (.union items s)
      | none => do
        let negated := rest.head? = some '^'
        let (literals, rest) := leadingLiterals (if negated then rest.drop 1 else rest)
        let (s, rest) ← classBody? fuel rest id literals
        classBody? fuel rest combine (.union items (if negated then .complement s else s))
    | _ => do
      let (s, rest) ← classItem? text
      classBody? fuel rest combine (.union items s)

def class? (text : List Char) : Option (CharClass × List Char) := do
  let negated := text.head? = some '^'
  let (literals, rest) := leadingLiterals (if negated then text.drop 1 else text)
  let (s, rest) ← classBody? (rest.length + 1) rest id literals
  return (if negated then .complement s else s, rest)

def maxRepeat : Nat := 0xFFFFFFFF

def count? (text : List Char) : Option (Nat × List Char) :=
  let text := Text.skipWhite text
  let digits := text.takeWhile Char.isDigit
  let n := Nat.ofDigitChars 10 digits 0
  if digits = [] ∨ maxRepeat < n then none
  else some (n, Text.skipWhite (text.dropWhile Char.isDigit))

/-- The bounds of a repetition after its opening brace. -/
def bounds? (text : List Char) : Option (Nat × Option Nat × List Char) := do
  let (least, rest) ← count? text
  match rest with
  | '\x7d' :: rest => some (least, some least, rest)
  | ',' :: rest =>
    match rest with
    | '\x7d' :: rest => some (least, none, rest)
    | _ => do
      let (most, rest) ← count? rest
      match rest with
      | '\x7d' :: rest => if least ≤ most then some (least, some most, rest) else none
      | _ => none
  | _ => none

/-- A group that is being read: the choices before the current one, and the parts of the current
one, last part first. -/
structure Group where
  choices : List Pattern
  parts : List Pattern

namespace Group

/-- A group of which nothing has been read. -/
def start : Group := ⟨[], []⟩

def current (g : Group) : Pattern := g.parts.foldl (fun later p => .seq p later) .empty

def close (g : Group) : Pattern := g.choices.foldr .choice g.current

def add (g : Group) (p : Pattern) : Group := { g with parts := p :: g.parts }

/-- The group after the end of a choice. -/
def nextChoice (g : Group) : Group := ⟨g.choices ++ [g.current], []⟩

/-- The group with its last part repeated, if there is one. -/
def repeatLast? (g : Group) (least : Nat) (most : Option Nat) : Option Group :=
  match g.parts with
  | [] => none
  | p :: parts => some { g with parts := .repeated p least most :: parts }

end Group

/-- A text without a question mark at its start. -/
def dropLazyMark : List Char → List Char
  | '?' :: rest => rest
  | text => text

/-- Reads a pattern; `outer` holds the groups around the one being read. -/
def read? : Nat → List Char → Group → List Group → Option Pattern
  | 0, _, _, _ => none
  | fuel + 1, text, group, outer =>
    match text with
    | [] => if outer.isEmpty then some group.close else none
    | '(' :: '?' :: ':' :: rest => read? fuel rest .start (group :: outer)
    | '(' :: '?' :: _ => none
    | '(' :: rest => read? fuel rest .start (group :: outer)
    | ')' :: rest =>
      match outer with
      | [] => none
      | around :: outer => read? fuel rest (around.add group.close) outer
    | '|' :: rest => read? fuel rest group.nextChoice outer
    | '*' :: rest => do read? fuel (dropLazyMark rest) (← group.repeatLast? 0 none) outer
    | '+' :: rest => do read? fuel (dropLazyMark rest) (← group.repeatLast? 1 none) outer
    | '?' :: rest => do read? fuel (dropLazyMark rest) (← group.repeatLast? 0 (some 1)) outer
    | '\x7b' :: rest => do
      let (least, most, rest) ← bounds? rest
      read? fuel (dropLazyMark rest) (← group.repeatLast? least most) outer
    | '[' :: rest => do
      let (s, rest) ← class? rest
      read? fuel rest (group.add (.one s)) outer
    | '.' :: rest => read? fuel rest (group.add (.one .dot)) outer
    | '^' :: rest => read? fuel rest (group.add (.anchor .textStart)) outer
    | '$' :: rest => read? fuel rest (group.add (.anchor .textEnd)) outer
    | '\\' :: [] => none
    | '\\' :: c :: rest => do
      let part := match ← escape? c with
        | .char c => .one (.one c)
        | .set s => .one s
        | .anchor a => .anchor a
      read? fuel rest (group.add part) outer
    | c :: rest => read? fuel rest (group.add (.one (.one c))) outer

/-- The pattern that a text spells, if it spells one. -/
def ofText? (text : String) : Option Pattern :=
  read? (text.toList.length + 1) text.toList .start []

end EngineTrials.Pattern
