import EngineTrials.Proofs.Json.Members
import Mathlib.Data.List.Nodup

/-! The parts of a record are read back from the object that holds them: each field is found by its
name, the tag of a variant comes first, and texts, counts and lists give what they were made of. -/

namespace EngineTrials.Json

@[simp] theorem text?_ofString (s : String) : text? (ofString s) = some s := rfl

theorem valueOfDigits_toDigits (n : Nat) : valueOfDigits (Nat.toDigits 10 n) = n :=
  Nat.ofDigitChars_ten_toDigits

theorem all_isDigit_toDigits (n : Nat) : (Nat.toDigits 10 n).all Char.isDigit = true :=
  List.all_eq_true.2 fun _ hc => Nat.isDigit_of_mem_toDigits (by decide) (by decide) hc

theorem countOfNumeral?_toDigits {n : Nat} (hn : n ≤ maxCount) :
    countOfNumeral? (String.ofList (Nat.toDigits 10 n)) = some n := by
  simp [countOfNumeral?, valueOfDigits_toDigits, all_isDigit_toDigits, hn, Nat.toDigits_ne_nil]

theorem count?_ofNat {n : Nat} (hn : n ≤ maxCount) : count? (ofNat n) = some n :=
  countOfNumeral?_toDigits hn

theorem nullable_ofOption (s : Option String) : Fields.nullable text? (ofOption s) = some s := by
  cases s with
  | none => rfl
  | some text => rfl

theorem list?_map {α : Type} {item? : Json → Option α} {toItem : α → Json} {items : List α}
    (h : ∀ item ∈ items, item? (toItem item) = some item) :
    list? item? (.array (items.map toItem)) = some items := by
  induction items with
  | nil => rfl
  | cons item rest ih =>
    rw [List.forall_mem_cons] at h
    have hrest : (rest.map toItem).mapM item? = some rest := ih h.2
    simp [list?, List.mapM_cons, h.1, hrest]

theorem list?_ofStrings (texts : List String) : list? text? (ofStrings texts) = some texts :=
  list?_map fun text _ => text?_ofString text

section

variable {members : List (String × Json)} {names : List String}

/-- The fields of an object are found by their names. -/
theorem fields?_ofMembers (names : List String) {members : List (String × Json)}
    (h : (members.map Prod.fst).Nodup) :
    ∃ fields, fields? names (ofMembers members) = some fields ∧ fields.byPlace = false ∧
      ∀ name ∈ names, fields.get? name = members.lookup name := by
  have honce : ∀ name ∈ names, (valuesNamed name members).length ≤ 1 := by
    intro name _
    rw [length_valuesNamed]
    exact List.nodup_iff_count_le_one.1 h name
  have hfields := fields?_ofMembers_eq_some_iff.2 ⟨honce, rfl⟩
  refine ⟨_, hfields, rfl, fun name hname => ?_⟩
  rw [get?_of_fields? hfields hname, lookup_eq_head?_valuesNamed]

/-- The tag of a variant is found in front of its fields. -/
theorem tagged?_ofMembers {tag : String} (value : Json) (h : tag ∉ members.map Prod.fst) :
    tagged? tag (ofMembers ((tag, value) :: members)) = some (value, ofMembers members) := by
  have hne : ∀ m ∈ members, m.1 ≠ tag := fun m hm heq => h (heq ▸ List.mem_map_of_mem hm)
  have hvalues : valuesNamed tag members = [] := by simpa [valuesNamed] using hne
  have hothers : (members.filter fun m => m.1 != tag) = members := by
    rw [List.filter_eq_self]
    simpa using hne
  rw [tagged?_ofMembers_eq_some_iff, List.filter_cons_of_neg (by simp), hothers]
  refine ⟨?_, rfl⟩
  rw [valuesNamed, List.filter_cons_of_pos (by simp), List.map_cons, ← valuesNamed, hvalues]

theorem variant?_ofString {name : String} (hname : name ∈ names) (held : Bool) :
    variant? names held (ofString name) = some name := by
  simp [variant?, ofString, hname]

end

/-! Holding values. -/

theorem canHold_ofNat {n : Nat} (hn : n ≤ maxCount) (room : Nat) :
    canHold room (ofNat n) = true := by
  simp [canHold, ofNat, canHoldNumeral, countOfNumeral?_toDigits hn]

@[simp] theorem canHold_ofString (s : String) (room : Nat) : canHold room (ofString s) = true := rfl

@[simp] theorem canHold_ofOption (s : Option String) (room : Nat) :
    canHold room (ofOption s) = true := by
  cases s with
  | none => rfl
  | some text => rfl

theorem canHoldItems_iff {room : Nat} {items : List Json} :
    canHoldItems room items = true ↔ ∀ item ∈ items, canHold room item = true := by
  induction items with
  | nil => simp [canHoldItems]
  | cons item rest ih => simp [canHoldItems, ih]

theorem canHoldMembers_iff {room : Nat} {members : List (Option String × Json)} :
    canHoldMembers room members = true ↔
      ∀ m ∈ members, m.1.isSome = true ∧ canHold room m.2 = true := by
  induction members with
  | nil => simp [canHoldMembers]
  | cons member rest ih =>
    obtain ⟨key, value⟩ := member
    simp [canHoldMembers, ih]

@[simp] theorem canHold_ofStrings (texts : List String) (room : Nat) :
    canHold (room + 1) (ofStrings texts) = true := by
  have hitems : canHoldItems room (texts.map ofString) = true := by
    rw [canHoldItems_iff]
    intro item hitem
    obtain ⟨text, -, rfl⟩ := List.mem_map.1 hitem
    exact canHold_ofString text room
  simp [ofStrings, canHold, hitems]

theorem canHold_ofMembers {members : List (String × Json)} {room : Nat}
    (h : ∀ m ∈ members, canHold room m.2 = true) :
    canHold (room + 1) (ofMembers members) = true := by
  have hmembers : canHoldMembers room (members.map fun m => (some m.1, m.2)) = true := by
    rw [canHoldMembers_iff]
    intro m hm
    obtain ⟨member, hmember, rfl⟩ := List.mem_map.1 hm
    exact ⟨rfl, h member hmember⟩
  simp [ofMembers, canHold, hmembers]

/-- The members of an object can be held if their values can. -/
theorem canHold_ofMembers_iff {members : List (String × Json)} {room : Nat} :
    canHold (room + 1) (ofMembers members) = true ↔
      ∀ m ∈ members, canHold room m.2 = true := by
  refine ⟨fun h m hm => ?_, canHold_ofMembers⟩
  rw [ofMembers, canHold, Bool.and_eq_true, canHoldMembers_iff] at h
  exact (h.2 _ (List.mem_map_of_mem hm)).2

/-! Variants: a tag, and the fields after it. -/

/-- The object has a tag with the name of a variant in front, and the fields of the variant after
it. -/
structure IsVariant (tag : String) (variant : String × List (String × Json)) (j : Json) :
    Prop where
  eq : j = ofMembers ((tag, ofString variant.1) :: variant.2)
  nodup : (tag :: variant.2.map Prod.fst).Nodup

section

variable {tag : String} {variant : String × List (String × Json)} {j : Json}

theorem IsVariant.tagged? (h : IsVariant tag variant j) :
    j.tagged? tag = some (ofString variant.1, ofMembers variant.2) := by
  rw [h.eq]
  exact tagged?_ofMembers _ (List.nodup_cons.1 h.nodup).1

theorem IsVariant.fields? (h : IsVariant tag variant j) (names : List String) :
    ∃ fields, Json.fields? names (ofMembers variant.2) = some fields ∧
      ∀ name ∈ names, fields.get? name = variant.2.lookup name := by
  obtain ⟨fields, hfields, -, hget⟩ := fields?_ofMembers names (List.nodup_cons.1 h.nodup).2
  exact ⟨fields, hfields, hget⟩

theorem IsVariant.canHold (h : IsVariant tag variant j) {room : Nat}
    (hfields : ∀ m ∈ variant.2, Json.canHold room m.2 = true) :
    Json.canHold (room + 1) j = true := by
  rw [h.eq]
  apply canHold_ofMembers
  intro m hm
  obtain rfl | hm := List.mem_cons.1 hm
  · exact canHold_ofString _ _
  · exact hfields m hm

end

end EngineTrials.Json
