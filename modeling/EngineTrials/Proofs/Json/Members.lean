import EngineTrials.Json.Decode
import EngineTrials.Proofs.Json.Grammar
import Mathlib.Data.List.Basic

/-! The members of an object by their names. What is read of an object depends only on the values
that the names have in it, so the order of the members plays no part, and neither do members of
other names. -/

namespace EngineTrials.Json

theorem lookup_map_some (members : List (String × Json)) (name : String) :
    (members.map fun m => (some m.1, m.2)).lookup (some name) = members.lookup name := by
  induction members with
  | nil => rfl
  | cons member rest ih =>
    obtain ⟨key, value⟩ := member
    simp only [List.map_cons, List.lookup_cons, ih, Option.some_beq_some]

theorem timesNamed_map_some (members : List (String × Json)) (name : String) :
    timesNamed name (members.map fun m => (some m.1, m.2)) =
      (members.map Prod.fst).count name := by
  simp [timesNamed, List.countP_map, List.count, Function.comp_def]

theorem all_isSome_map (members : List (String × Json)) :
    (members.map fun m => (some m.1, m.2)).all (fun m => m.1.isSome) = true := by
  simp

/-- The fields that are present are those of the given names. -/
theorem lookup_filterMap (names : List String) (members : List (String × Json)) (name : String) :
    (names.filterMap fun key => (members.lookup key).map (key, ·)).lookup name =
      if name ∈ names then members.lookup name else none := by
  induction names with
  | nil => rfl
  | cons key rest ih =>
    rw [List.filterMap_cons]
    by_cases hkey : name = key
    · subst hkey
      cases hlookup : members.lookup name with
      | none => simp [ih, hlookup]
      | some value => simp
    · have hne : (name == key) = false := by simpa using hkey
      cases members.lookup key with
      | none => simp [ih, hkey]
      | some value => simp [ih, hkey, List.lookup_cons, hne]

/-- The values of the members of a name, in their order. -/
def valuesNamed (name : String) (members : List (String × Json)) : List Json :=
  (members.filter fun m => m.1 == name).map Prod.snd

/-- The values that a name may have where a text may be missing: none or null without the text. -/
def valuesOfOption : Option String → List (List Json)
  | some text => [[ofString text]]
  | none => [[], [.null]]

variable {members : List (String × Json)} {name tag text : String} {names : List String}
  {text? : Option String} {f : Fields} {j rest : Json}

theorem ofString_injective : Function.Injective ofString := by
  intro a b h
  simpa [ofString] using h

theorem mem_valuesNamed_iff : j ∈ valuesNamed name members ↔ (name, j) ∈ members := by
  simp [valuesNamed]

theorem length_valuesNamed (name : String) (members : List (String × Json)) :
    (valuesNamed name members).length = (members.map Prod.fst).count name := by
  rw [valuesNamed, List.length_map, ← List.countP_eq_length_filter, List.count, List.countP_map]
  rfl

theorem lookup_eq_head?_valuesNamed (name : String) (members : List (String × Json)) :
    members.lookup name = (valuesNamed name members).head? := by
  induction members with
  | nil => rfl
  | cons member rest ih =>
    obtain ⟨key, value⟩ := member
    by_cases hkey : name = key
    · subst hkey
      simp [valuesNamed]
    · have hlookup : (name == key) = false := by simpa using hkey
      have hfilter : (key == name) = false := by simpa using Ne.symm hkey
      rw [List.lookup_cons, hlookup, ih, valuesNamed, valuesNamed, List.filter_cons, hfilter]
      rfl

theorem valuesNamed_filter_ne (h : name ≠ tag) :
    valuesNamed name (members.filter fun m => m.1 != tag) = valuesNamed name members := by
  rw [valuesNamed, List.filter_filter, valuesNamed]
  congr 2
  funext m
  by_cases hm : m.1 = name
  · simp [hm, h]
  · simp [hm]

theorem length_le_one_of_mem_valuesOfOption {values : List Json}
    (h : values ∈ valuesOfOption text?) : values.length ≤ 1 := by
  cases text? with
  | none =>
    obtain rfl | rfl := by simpa [valuesOfOption] using h
    · exact Nat.zero_le 1
    · exact Nat.le_refl 1
  | some text =>
    obtain rfl := by simpa [valuesOfOption] using h
    exact Nat.le_refl 1

theorem eq_of_mem_valuesOfOption {values : List Json} (h : values ∈ valuesOfOption text?)
    (hj : j ∈ values) : j = .null ∨ ∃ text, j = ofString text := by
  cases text? with
  | none =>
    obtain rfl | rfl := by simpa [valuesOfOption] using h
    · contradiction
    · exact .inl (List.mem_singleton.1 hj)
  | some text =>
    obtain rfl := by simpa [valuesOfOption] using h
    exact .inr ⟨text, List.mem_singleton.1 hj⟩

/-- A tag is found where it is there once, in front or behind other members. -/
theorem tagged?_ofMembers_eq_some_iff : tagged? tag (ofMembers members) = some (j, rest) ↔
    valuesNamed tag members = [j] ∧ rest = ofMembers (members.filter fun m => m.1 != tag) := by
  have hothers : (members.map fun m => (some m.1, m.2)).filter (fun m => m.1 != some tag) =
      (members.filter fun m => m.1 != tag).map fun m => (some m.1, m.2) := by
    rw [List.filter_map]
    rfl
  rw [ofMembers, tagged?, hothers, lookup_map_some, timesNamed_map_some, ← length_valuesNamed,
    lookup_eq_head?_valuesNamed]
  cases hvalues : valuesNamed tag members with
  | nil => simp
  | cons value more =>
    cases more with
    | nil =>
      rw [ofMembers, if_pos ⟨all_isSome_map members, rfl⟩, List.head?_cons, Option.map_some,
        Option.some.injEq, Prod.mk.injEq, List.singleton_inj, eq_comm (a := rest)]
    | cons other more => simp

/-- Fields are read where none of their names is there twice. -/
theorem fields?_ofMembers_eq_some_iff : fields? names (ofMembers members) = some f ↔
    (∀ name ∈ names, (valuesNamed name members).length ≤ 1) ∧
      f = ⟨names.filterMap fun name => (members.lookup name).map (name, ·), false⟩ := by
  simp only [ofMembers, fields?, all_isSome_map, true_and, timesNamed_map_some, lookup_map_some,
    length_valuesNamed, List.all_eq_true, decide_eq_true_eq]
  split
  case isTrue honce =>
    rw [Option.some.injEq, eq_comm]
    exact (and_iff_right honce).symm
  case isFalse htwice =>
    exact iff_of_false (Option.some_ne_none f).symm fun h => htwice h.1

theorem text?_eq_some_iff : Json.text? j = some text ↔ j = ofString text := by
  cases j <;> simp [Json.text?, ofString]

theorem variant?_eq_some_iff :
    variant? names false j = some name ↔ j = ofString name ∧ name ∈ names := by
  cases j with
  | string text =>
    cases text with
    | none => simp [variant?, ofString]
    | some text =>
      simp only [variant?, ofString, List.contains_iff_mem, Option.ite_none_right_eq_some,
        Option.some.injEq, Json.string.injEq]
      rw [and_comm]
      exact and_congr_right fun htext => by rw [htext]
  | _ => simp [variant?, ofString]

section

variable (hfields : fields? names (ofMembers members) = some f) (hname : name ∈ names)

include hfields hname

theorem get?_of_fields? : f.get? name = (valuesNamed name members).head? := by
  obtain ⟨-, rfl⟩ := fields?_ofMembers_eq_some_iff.1 hfields
  rw [Fields.get?, lookup_filterMap, if_pos hname, lookup_eq_head?_valuesNamed]

theorem valuesNamed_of_fields? :
    valuesNamed name members = [] ∨ ∃ j, valuesNamed name members = [j] := by
  obtain ⟨honce, -⟩ := fields?_ofMembers_eq_some_iff.1 hfields
  have hlength := honce name hname
  match hvalues : valuesNamed name members, hlength with
  | [], _ => exact .inl rfl
  | [j], _ => exact .inr ⟨j, rfl⟩

/-- A required text is read where the name has this value and no other. -/
theorem required_eq_some_iff :
    f.required name Json.text? = some text ↔ valuesNamed name members = [ofString text] := by
  rw [Fields.required, get?_of_fields? hfields hname]
  obtain hvalues | ⟨j, hvalues⟩ := valuesNamed_of_fields? hfields hname
  · simp [hvalues]
  · simp [hvalues, text?_eq_some_iff]

theorem optional_eq_some_iff :
    f.optional name Json.text? = some text? ↔
      valuesNamed name members ∈ valuesOfOption text? := by
  obtain ⟨-, hf⟩ := fields?_ofMembers_eq_some_iff.1 hfields
  have hplace : f.byPlace = false := by rw [hf]
  rw [Fields.optional, get?_of_fields? hfields hname, hplace]
  obtain hvalues | ⟨j, hvalues⟩ := valuesNamed_of_fields? hfields hname
  · cases text? <;> simp [hvalues, valuesOfOption]
  · cases text? with
    | none => cases j <;> simp [hvalues, valuesOfOption, Fields.nullable]
    | some text =>
      cases j with
      | null => simp [hvalues, valuesOfOption, Fields.nullable, ofString]
      | _ => simp [hvalues, valuesOfOption, Fields.nullable, Json.text?, ofString]

end

theorem WrittenMembers.closed {members : List (Option String × Json)} {more : List Char}
    (h : WrittenMembers members more) : ∃ body, more = body ++ ['\x7d'] := by
  match h with
  | .close _ => exact ⟨_, rfl⟩
  | .next _ _ _ hmore =>
    obtain ⟨body, rfl⟩ := hmore.closed
    exact ⟨_, (List.append_assoc ..).symm⟩

/-- The text of an object ends with a closing brace. -/
theorem Written.closed {text : List Char} (h : Written (ofMembers members) text) :
    ∃ body, text = body ++ ['\x7d'] := by
  generalize hobject : ofMembers members = object at h
  cases h with
  | emptyObject _ => exact ⟨_, rfl⟩
  | object _ _ hmore =>
    obtain ⟨body, rfl⟩ := hmore.closed
    exact ⟨_, (List.append_assoc ..).symm⟩
  | _ => simp [ofMembers] at hobject

end EngineTrials.Json
