/-! Patterns that select names: regular expressions over classes of characters, anchors, sequence,
choice and repetition. A text is searched with sets of places in it: a pattern takes the places
where it may start to those where it may end. Names are ASCII, and so are the classes of letters,
digits and white space. -/

namespace EngineTrials

/-- A set of characters. -/
inductive CharClass
  | none
  /-- The characters from one to another. -/
  | range (first last : Char)
  | union (a b : CharClass)
  | inter (a b : CharClass)
  | complement (a : CharClass)
  deriving DecidableEq, Repr

namespace CharClass

def has : CharClass → Char → Bool
  | .none, _ => false
  | .range first last, c => first ≤ c && c ≤ last
  | .union a b, c => a.has c || b.has c
  | .inter a b, c => a.has c && b.has c
  | .complement a, c => !a.has c

def one (c : Char) : CharClass := .range c c

/-- The characters of `a` that are not in `b`. -/
def diff (a b : CharClass) : CharClass := .inter a (.complement b)

/-- The characters that are in one of the two sets only. -/
def symmDiff (a b : CharClass) : CharClass := .union (a.diff b) (b.diff a)

def any (classes : List CharClass) : CharClass := classes.foldr .union .none

def dot : CharClass := .complement (one '\n')

def digit : CharClass := .range '0' '9'

def space : CharClass := .union (.range '\t' '\r') (one ' ')

def word : CharClass := any [.range 'a' 'z', .range 'A' 'Z', digit, one '_']

end CharClass

/-- A condition on a place in a text. -/
inductive Anchor
  | textStart
  | textEnd
  /-- Between a word character and something else. -/
  | boundary
  /-- Not between a word character and something else. -/
  | noBoundary
  deriving DecidableEq, Repr

/-- A pattern. -/
inductive Pattern
  | empty
  | one (set : CharClass)
  | anchor (condition : Anchor)
  | seq (p q : Pattern)
  | choice (p q : Pattern)
  /-- At least `least` and, if there is a bound, at most `most` times. -/
  | repeated (p : Pattern) (least : Nat) (most : Option Nat)
  deriving DecidableEq, Repr

/-- A set of places in a text of `n` characters: for each of the `n + 1` places between them and at
the ends, whether it is in the set. -/
abbrev Places := List Bool

namespace Places

def union (a b : Places) : Places := List.zipWith (· || ·) a b

def inter (a b : Places) : Places := List.zipWith (· && ·) a b

/-- The places reached by at most `rounds` steps. -/
def reach (step : Places → Places) : Nat → Places → Places
  | 0, places => places
  | rounds + 1, places => reach step rounds (places.union (step places))

end Places

/-- The places of a text where an anchor holds. -/
def Anchor.places (text : List Char) : Anchor → Places
  | .textStart => true :: text.map fun _ => false
  | .textEnd => (text.map fun _ => false) ++ [true]
  | .boundary =>
    let words := text.map CharClass.word.has
    List.zipWith (· != ·) (false :: words) (words ++ [false])
  | .noBoundary =>
    let words := text.map CharClass.word.has
    List.zipWith (· == ·) (false :: words) (words ++ [false])

namespace Pattern

/-- The places where the pattern may end if it starts at one of the given places. A place is never
before the one it is reached from, so more rounds of a repetition than there are places change
nothing. -/
def ends (text : List Char) : Pattern → Places → Places
  | .empty, places => places
  | .one set, places => false :: List.zipWith (fun c b => b && set.has c) text places
  | .anchor condition, places => places.inter (condition.places text)
  | .seq p q, places => ends text q (ends text p places)
  | .choice p q, places => (ends text p places).union (ends text q places)
  | .repeated p least most, places =>
    let enough := text.length + 1
    let further := match most with
      | some most => min (most - least) enough
      | none => enough
    Places.reach (ends text p) further (Nat.repeat (ends text p) (min least enough) places)

/-- Whether the pattern stands for some part of a text. -/
def occursIn (p : Pattern) (text : List Char) : Bool :=
  (ends text p (true :: text.map fun _ => true)).any id

def selects (p : Pattern) (name : String) : Bool := p.occursIn name.toList

end Pattern

end EngineTrials
