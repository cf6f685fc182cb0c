import EngineTrials.Pattern.Reader
import EngineTrials.Proofs.Glob.Language
import EngineTrials.Proofs.Pattern.Places

/-! A glob as a regular expression. The text of the expression is read as a pattern whatever the
glob is, piece by piece, and a search with that pattern finds a text exactly if the tokens of the
glob accept it. -/

namespace EngineTrials

namespace GlobToken

open Pattern (StandsFor Marks ends read?)

/-- All characters but a slash, as the class for them is read. -/
def notSlash : CharClass := .complement (.union .none (.one '/'))

/-- The pattern that the piece for a token is read as. -/
def pattern : GlobToken → Pattern
  | .folders => .repeated
    (.seq (.repeated (.one .dot) 0 none) (.seq (.one (.one '/')) .empty)) 0 (some 1)
  | .anything => .repeated (.one .dot) 0 none
  | .within => .repeated (.one notSlash) 0 none
  | .one => .one notSlash
  | .literal c => .one (.one c)

/-- The pattern for tokens and the end of the text. -/
def patternToEnd (tokens : List GlobToken) : Pattern :=
  tokens.foldr (fun t later => .seq t.pattern later) (.seq (.anchor .textEnd) .empty)

section

variable {rest : List Char} {c d : Char} {parts : List Pattern} {fuel : Nat}

theorem has_one : (CharClass.one d).has c = (c == d) := by
  rw [Bool.eq_iff_iff, CharClass.one, CharClass.has, Bool.and_eq_true, decide_eq_true_iff,
    decide_eq_true_iff, beq_iff_eq]
  exact ⟨fun h => Char.le_antisymm h.2 h.1, fun h => h ▸ ⟨c.le_refl, c.le_refl⟩⟩

theorem has_dot : CharClass.dot.has = onLine := by
  funext c
  rw [CharClass.dot, CharClass.has, has_one, onLine, bne]

theorem has_notSlash : notSlash.has = inName := by
  funext c
  rw [notSlash, CharClass.has, CharClass.has, CharClass.has, has_one, Bool.false_or, inName, bne]

theorem standsFor_pattern (t : GlobToken) : StandsFor t.pattern t.Stands := by
  cases t with
  | folders =>
    refine (((Pattern.standsFor_many .dot).seq
      ((Pattern.standsFor_one (.one '/')).seq Pattern.standsFor_empty)).optional).congr
        fun part => or_congr_right ?_
    simp only [has_dot, has_one, beq_iff_eq]
    constructor
    · rintro ⟨inner, -, rfl, hline, -, -, rfl, ⟨c, rfl, rfl⟩, rfl⟩
      exact ⟨inner, rfl, hline⟩
    · rintro ⟨inner, rfl, hline⟩
      exact ⟨inner, ['/'], rfl, hline, ['/'], [], rfl, ⟨'/', rfl, rfl⟩, rfl⟩
  | anything => exact (Pattern.standsFor_many .dot).congr fun part => by simp [has_dot, Stands]
  | within =>
    exact (Pattern.standsFor_many notSlash).congr fun part => by simp [has_notSlash, Stands]
  | one => exact (Pattern.standsFor_one notSlash).congr fun part => by simp [has_notSlash, Stands]
  | literal c =>
    exact (Pattern.standsFor_one (.one c)).congr fun part => by simp [has_one, Stands]

/-- Tokens go from a place to the end of the text, over what they stand for. -/
theorem marks_patternToEnd (tokens : List GlobToken) {text : List Char}
    {P : List Char → List Char → Prop} {places : Places} (h : Marks text P places) :
    Marks text (fun before after => after = [] ∧
      ∃ front part, before = front ++ part ∧ Matches tokens part ∧ P front (part ++ after))
      (ends text (patternToEnd tokens) places) := by
  induction tokens generalizing P places with
  | nil =>
    refine (h.inter (Marks.textEnd text)).congr fun before after => ?_
    simp only [matches_nil_iff]
    constructor
    · rintro ⟨hP, rfl⟩
      exact ⟨rfl, before, [], by simp, rfl, hP⟩
    · rintro ⟨rfl, front, -, rfl, rfl, hP⟩
      exact ⟨by simpa using hP, rfl⟩
  | cons t tokens ih =>
    refine (ih (t.standsFor_pattern text P places h)).congr fun before after => ?_
    simp only [matches_cons_iff]
    exact and_congr_right fun _ => Pattern.exists_parts_iff

/-- A search with the pattern for tokens, from the start of a text to its end, finds what the tokens
accept. -/
theorem occursIn_patternToEnd (tokens : List GlobToken) (text : List Char) :
    (Pattern.seq (.anchor .textStart) (patternToEnd tokens)).occursIn text =
      accepts tokens text := by
  have hstart := (Marks.everywhere text).inter (Marks.textStart text)
  have h := marks_patternToEnd tokens hstart
  rw [Bool.eq_iff_iff, accepts, (tells_matches tokens text).headD]
  refine (Pattern.occursIn_iff (p := .seq (.anchor .textStart) (patternToEnd tokens)) h).trans ?_
  constructor
  · rintro ⟨-, -, rfl, rfl, front, part, rfl, hpart, -, rfl⟩
    simpa using hpart
  · exact fun hmatches => ⟨text, [], by simp, rfl, [], text, rfl, hmatches, trivial, rfl⟩

/-! Reading an expression. -/

theorem dropLazyMark_eq (h : rest.head? ≠ some '?') : Pattern.dropLazyMark rest = rest := by
  unfold Pattern.dropLazyMark
  split
  · simp at h
  · rfl

theorem read?_plain (hc : c ∉ specials) : read? (fuel + 1) (c :: rest) ⟨[], parts⟩ [] =
    read? fuel rest ⟨[], .one (.one c) :: parts⟩ [] := by
  have hne : ∀ d ∈ specials, c ≠ d := fun d hd heq => hc (heq ▸ hd)
  conv_lhs => unfold read?
  split
  case h_17 heq =>
    obtain ⟨rfl, rfl⟩ := List.cons.inj heq
    rfl
  all_goals first
    | contradiction
    | exact absurd (List.cons.inj ‹c :: rest = _›).1 (hne _ (by decide))

theorem escape?_of_mem (hc : c ∈ specials) : Pattern.escape? c = some (.char c) := by
  have hall : specials.all Pattern.isEscapable = true := by decide +kernel
  unfold Pattern.escape?
  split
  all_goals first
    | exact absurd hc (by decide)
    | exact if_pos (List.all_eq_true.1 hall c hc)

theorem read?_escaped (hc : c ∈ specials) : read? (fuel + 1) ('\\' :: c :: rest) ⟨[], parts⟩ [] =
    read? fuel rest ⟨[], .one (.one c) :: parts⟩ [] := by
  show (Pattern.escape? c).bind _ = _
  rw [escape?_of_mem hc]
  rfl

theorem expression_literal (c : Char) :
    (GlobToken.literal c).expression = if c ∈ specials then ['\\', c] else [c] := rfl

/-- How many rounds it takes to read the piece for a token. -/
def rounds : GlobToken → Nat
  | .folders => 6
  | .anything => 2
  | .within => 2
  | .one => 1
  | .literal _ => 1

theorem rounds_le (t : GlobToken) : t.rounds ≤ t.expression.length := by
  cases t with
  | literal c =>
    rw [expression_literal]
    split <;> exact Nat.le_of_ble_eq_true rfl
  | _ => decide

/-- The piece for a token is read as its pattern. -/
theorem read?_expression (t : GlobToken) (hrest : rest.head? ≠ some '?') :
    read? (fuel + t.rounds) (t.expression ++ rest) ⟨[], parts⟩ [] =
      read? fuel rest ⟨[], t.pattern :: parts⟩ [] := by
  cases t with
  | folders =>
    show read? fuel (Pattern.dropLazyMark rest) _ [] = _
    rw [dropLazyMark_eq hrest]
    rfl
  | anything =>
    show read? fuel (Pattern.dropLazyMark rest) _ [] = _
    rw [dropLazyMark_eq hrest]
    rfl
  | within =>
    show read? fuel (Pattern.dropLazyMark rest) _ [] = _
    rw [dropLazyMark_eq hrest]
    rfl
  | one => rfl
  | literal c =>
    rw [expression_literal]
    split
    case isTrue hc => exact read?_escaped hc
    case isFalse hc => exact read?_plain hc

theorem exists_expression_eq_cons (t : GlobToken) :
    ∃ c more, t.expression = c :: more ∧ c ≠ '?' := by
  cases t with
  | folders => exact ⟨'(', _, rfl, by decide⟩
  | anything => exact ⟨'.', _, rfl, by decide⟩
  | within => exact ⟨'[', _, rfl, by decide⟩
  | one => exact ⟨'[', _, rfl, by decide⟩
  | literal c =>
    rw [expression_literal]
    split
    case isTrue => exact ⟨'\\', _, rfl, by decide⟩
    case isFalse hc =>
      refine ⟨c, _, rfl, ?_⟩
      rintro rfl
      exact hc (by decide)

/-- No piece makes the repetition before it a lazy one. -/
theorem head?_expressions (tokens : List GlobToken) :
    (tokens.flatMap expression ++ ['$']).head? ≠ some '?' := by
  cases tokens with
  | nil => decide
  | cons t tokens =>
    obtain ⟨c, more, hcons, hne⟩ := t.exists_expression_eq_cons
    simpa [hcons] using hne

theorem read?_expressions (tokens : List GlobToken)
    (hfuel : (tokens.flatMap expression ++ ['$']).length < fuel) :
    read? fuel (tokens.flatMap expression ++ ['$']) ⟨[], parts⟩ [] =
      some (parts.foldl (fun later p => .seq p later) (patternToEnd tokens)) := by
  induction tokens generalizing fuel parts with
  | nil =>
    obtain ⟨spare, rfl⟩ := Nat.exists_eq_add_of_lt hfuel
    rw [Nat.add_right_comm, Nat.add_comm]
    rfl
  | cons t tokens ih =>
    rw [List.flatMap_cons, List.append_assoc] at hfuel ⊢
    rw [List.length_append] at hfuel
    have hrounds := t.rounds_le
    obtain ⟨spare, rfl⟩ := Nat.exists_eq_add_of_le' (show t.rounds ≤ fuel by omega)
    rw [t.read?_expression (head?_expressions tokens), ih (by omega)]
    rfl

end

end GlobToken

namespace Glob

/-- The regular expression of any glob can be read, and the glob selects the paths in which a search
with it finds a match: in the whole path, or in the file name if the pattern has no slash. -/
theorem selects_eq_search (g : Glob) : ∃ p, Pattern.ofText? g.expression = some p ∧
    ∀ relative, g.selects relative =
      (p.occursIn (normalize relative) ||
        (g.isNameOnly && p.occursIn (lastName (normalize relative)))) := by
  refine ⟨.seq (.anchor .textStart) (GlobToken.patternToEnd g.tokens), ?_, fun relative => ?_⟩
  · rw [Pattern.ofText?, expression, String.toList_ofList]
    exact @GlobToken.read?_expressions [.anchor .textStart] _ g.tokens (by simp)
  · rw [selects, GlobToken.occursIn_patternToEnd, GlobToken.occursIn_patternToEnd]

example : expression ⟨"**/a.js"⟩ = "^(?:.*/)?a\\.js$" := by decide +kernel

end Glob

end EngineTrials
