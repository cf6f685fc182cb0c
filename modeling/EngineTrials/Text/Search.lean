/-! Searching a text: occurrences of one text in another, the suffixes that follow a character,
the pieces between separators, and replacement from left to right. -/

namespace EngineTrials.Text

def occursIn (needle : List Char) : List Char → Bool
  | [] => needle.isEmpty
  | c :: rest => needle.isPrefixOf (c :: rest) || occursIn needle rest

def contains (s needle : String) : Bool := occursIn needle.toList s.toList

/-- What follows a literal at the start of a text. -/
def dropLiteral? : List Char → List Char → Option (List Char)
  | [], text => some text
  | _ :: _, [] => none
  | c :: literal, d :: text => if c = d then dropLiteral? literal text else none

/-- What follows the characters of `literal` at the start of a text. -/
def after? (literal : String) (text : List Char) : Option (List Char) :=
  dropLiteral? literal.toList text

/-- What follows each character that satisfies `p`, from left to right. -/
def suffixesAfter (p : Char → Bool) : List Char → List (List Char)
  | [] => []
  | c :: rest => if p c then rest :: suffixesAfter p rest else suffixesAfter p rest

/-- What follows the start of each line, the line included. -/
def lineStarts (text : List Char) : List (List Char) :=
  text :: suffixesAfter (· == '\n') text

/-- The pieces of a text between the occurrences of a separator; there is one more than there are
separators. -/
def pieces (separator : Char) : List Char → List (List Char)
  | [] => [[]]
  | c :: rest =>
    if c = separator then [] :: pieces separator rest
    else
      match pieces separator rest with
      | [] => [[c]]
      | first :: others => (c :: first) :: others

/-- The lines of a text, without their line feeds. -/
def lines (text : List Char) : List (List Char) := pieces '\n' text

/-- The text with each occurrence of `old` replaced by `new`, from left to right and without
overlap; the first `skip` characters belong to an occurrence already replaced. -/
def replaceFrom (old new : List Char) : Nat → List Char → List Char
  | _, [] => []
  | skip + 1, _ :: rest => replaceFrom old new skip rest
  | 0, c :: rest =>
    if old.isPrefixOf (c :: rest) then new ++ replaceFrom old new (old.length - 1) rest
    else c :: replaceFrom old new 0 rest

/-- The string with each occurrence of a non-empty `old` replaced by `new`. -/
def replace (s old new : String) : String :=
  String.ofList (replaceFrom old.toList new.toList 0 s.toList)

def join (separator : String) : List String → String
  | [] => ""
  | [s] => s
  | s :: rest => s ++ separator ++ join separator rest

/-- A literal is dropped from a text exactly when the text starts with it. -/
theorem dropLiteral?_eq_some_iff {literal text rest : List Char} :
    dropLiteral? literal text = some rest ↔ text = literal ++ rest := by
  induction literal generalizing text with
  | nil => simp [dropLiteral?]
  | cons c literal ih =>
    cases text with
    | nil => simp [dropLiteral?]
    | cons d text => by_cases h : c = d <;> simp [dropLiteral?, h, ih, eq_comm]

theorem pieces_ne_nil (separator : Char) (text : List Char) : pieces separator text ≠ [] := by
  cases text with
  | nil => simp [pieces]
  | cons c rest =>
    simp only [pieces]
    split
    · simp
    · split <;> simp

theorem pieces_of_not_mem {separator : Char} {text : List Char} (h : separator ∉ text) :
    pieces separator text = [text] := by
  induction text with
  | nil => rfl
  | cons c rest ih =>
    obtain ⟨hc, hrest⟩ := not_or.1 (mt List.mem_cons.2 h)
    rw [pieces, if_neg (Ne.symm hc), ih hrest]

theorem pieces_append_cons (separator : Char) (first second : List Char) :
    pieces separator (first ++ separator :: second) =
      pieces separator first ++ pieces separator second := by
  induction first with
  | nil => simp [pieces]
  | cons c rest ih =>
    rw [List.cons_append, pieces, pieces, ih]
    split
    · rfl
    · cases hpieces : pieces separator rest with
      | nil => exact absurd hpieces (pieces_ne_nil separator rest)
      | cons piece others => rfl

theorem not_mem_of_mem_pieces {separator : Char} {text piece : List Char}
    (h : piece ∈ pieces separator text) : separator ∉ piece := by
  induction text generalizing piece with
  | nil =>
    rw [List.mem_singleton.1 h]
    exact List.not_mem_nil
  | cons c rest ih =>
    rw [pieces] at h
    split at h
    · rcases List.mem_cons.1 h with rfl | hrest
      · exact List.not_mem_nil
      · exact ih hrest
    · rename_i hc
      split at h
      · rw [List.mem_singleton.1 h]
        exact List.not_mem_cons_of_ne_of_not_mem (Ne.symm hc) List.not_mem_nil
      · rename_i first others hpieces
        rw [hpieces] at ih
        rcases List.mem_cons.1 h with rfl | hother
        · exact List.not_mem_cons_of_ne_of_not_mem (Ne.symm hc) (ih List.mem_cons_self)
        · exact ih (List.mem_cons_of_mem _ hother)

theorem pieces_intercalate {separator : Char} {all : List (List Char)} (hne : all ≠ [])
    (h : ∀ piece ∈ all, separator ∉ piece) :
    pieces separator (List.intercalate [separator] all) = all := by
  induction all with
  | nil => exact absurd rfl hne
  | cons piece rest ih =>
    obtain ⟨hpiece, hrest⟩ := List.forall_mem_cons.1 h
    cases rest with
    | nil => rw [List.intercalate_singleton, pieces_of_not_mem hpiece]
    | cons next more =>
      rw [List.intercalate_cons_cons, List.append_assoc, List.singleton_append,
        pieces_append_cons, pieces_of_not_mem hpiece, ih (by simp) hrest, List.singleton_append]

end EngineTrials.Text
