import EngineTrials.Bench.Record
import EngineTrials.Proofs.Engine.Records

/-! Records of benchmarks on lines. A line holds a record exactly if the JSON text behind its marker
tells the record, as an object with fields by name or as an array with fields by place. -/

namespace EngineTrials

open Text
open Json (IsBlank Written ofMembers ofString valuesNamed)

namespace Json

variable {members : List (String × Json)} {names : List String} {name : String} {j : Json}
  {f : Fields} {values : String → List Json}

/-- The values that names have in an object, and in an array by their places. -/
inductive HasFields (names : List String) : Json → (String → List Json) → Prop
  | object (members : List (String × Json)) :
      (∀ name ∈ names, (valuesNamed name members).length ≤ 1) →
      HasFields names (ofMembers members) fun name => valuesNamed name members
  | array (items : List Json) : items.length ≤ names.length →
      HasFields names (.array items) fun name => ((names.zip items).lookup name).toList

/-- The values of a field that may be missing or null. -/
inductive Says {α : Type} (tells : Json → α → Prop) : List Json → Option α → Prop
  | missing : Says tells [] none
  | null : Says tells [.null] none
  | value {j : Json} {a : α} : tells j a → Says tells [j] (some a)

theorem Says.length_le_one {α : Type} {tells : Json → α → Prop} {values : List Json} {a? : Option α}
    (h : Says tells values a?) : values.length ≤ 1 := by
  cases h <;> simp

/-- A number of digits alone that fits in 64 bits. -/
def TellsCount (j : Json) (n : Nat) : Prop :=
  ∃ numeral, j = .number numeral ∧ numeral.toList ≠ [] ∧
    (∀ c ∈ numeral.toList, c.isDigit = true) ∧
      n = Nat.ofDigitChars 10 numeral.toList 0 ∧ n < UInt64.size

/-- A number that is not too large for a double. -/
def TellsDouble (j : Json) (x : Float) : Prop :=
  ∃ numeral, j = .number numeral ∧ floatOfNumeral? numeral = some x

theorem count?_eq_some_iff {n : Nat} : count? j = some n ↔ TellsCount j n := by
  cases j with
  | number numeral =>
    simp only [count?, countOfNumeral?, TellsCount, valueOfDigits, maxCount, UInt64.size,
      List.all_eq_true, Option.ite_none_right_eq_some, Option.some.injEq, Json.number.injEq]
    constructor
    · rintro ⟨⟨hne, hdigits, hmax⟩, rfl⟩
      exact ⟨numeral, rfl, hne, hdigits, rfl, by omega⟩
    · rintro ⟨_, rfl, hne, hdigits, rfl, hmax⟩
      exact ⟨⟨hne, hdigits, by omega⟩, rfl⟩
  | _ => simp [count?, TellsCount]

theorem float?_eq_some_iff {x : Float} : float? j = some x ↔ TellsDouble j x := by
  cases j with
  | number numeral => simp [float?, TellsDouble]
  | _ => simp [float?, TellsDouble]

theorem exists_ofMembers {members : List (Option String × Json)}
    (h : ∀ m ∈ members, m.1.isSome = true) :
    ∃ named : List (String × Json), members = named.map fun m => (some m.1, m.2) := by
  induction members with
  | nil => exact ⟨[], rfl⟩
  | cons m rest ih =>
    obtain ⟨hm, hrest⟩ := List.forall_mem_cons.1 h
    obtain ⟨named, rfl⟩ := ih hrest
    obtain ⟨name, hname⟩ := Option.isSome_iff_exists.1 hm
    exact ⟨(name, m.2) :: named, by rw [List.map_cons, ← hname]⟩

/-- Fields are found where names have values, and are these values. -/
theorem HasFields.exists_fields (h : HasFields names j values) :
    ∃ f, fields? names j = some f ∧ ∀ name ∈ names, (f.get? name).toList = values name := by
  cases h with
  | object members honce =>
    have hfields := fields?_ofMembers_eq_some_iff.2 ⟨honce, rfl⟩
    refine ⟨_, hfields, fun name hname => ?_⟩
    obtain hvalues | ⟨value, hvalues⟩ := valuesNamed_of_fields? hfields hname <;>
      simp [get?_of_fields? hfields hname, hvalues]
  | array items hlength => exact ⟨_, if_pos hlength, fun _ _ => rfl⟩

theorem exists_hasFields (h : fields? names j = some f) : ∃ values, HasFields names j values := by
  cases j with
  | array items => exact ⟨_, .array items (Option.ite_none_right_eq_some.1 h).1⟩
  | object members =>
    obtain ⟨⟨hnames, -⟩, -⟩ := Option.ite_none_right_eq_some.1 h
    obtain ⟨named, rfl⟩ := exists_ofMembers (List.all_eq_true.1 hnames)
    exact ⟨_, .object named (fields?_ofMembers_eq_some_iff.1 h).1⟩
  | _ => simp [fields?] at h

theorem required_text?_eq_some_iff {text : String} :
    f.required name text? = some text ↔ (f.get? name).toList = [ofString text] := by
  cases hvalue : f.get? name with
  | none => simp [Fields.required, hvalue]
  | some value => simp [Fields.required, hvalue, text?_eq_some_iff]

theorem defaulted_nullable_eq_some_iff {α : Type} {read? : Json → Option α}
    {tells : Json → α → Prop} {a? : Option α} (hread : ∀ j a, read? j = some a ↔ tells j a)
    (hnull : ∀ a, ¬ tells .null a) :
    f.defaulted name none (Fields.nullable read?) = some a? ↔
      Says tells (f.get? name).toList a? := by
  cases hvalue : f.get? name with
  | none =>
    simp only [Fields.defaulted, hvalue, Option.some.injEq, Option.toList_none]
    constructor
    · rintro rfl
      exact .missing
    · rintro ⟨⟩
      rfl
  | some j =>
    simp only [Fields.defaulted, hvalue, Option.toList_some]
    constructor
    · intro h
      unfold Fields.nullable at h
      split at h
      · obtain rfl := Option.some.inj h
        exact .null
      · obtain ⟨a, ha, rfl⟩ := Option.map_eq_some_iff.1 h
        exact .value ((hread j a).1 ha)
    · rintro (_ | _ | htells)
      · rfl
      · have hne : j ≠ .null := fun heq => hnull _ (heq ▸ htells)
        rw [Fields.nullable.eq_2 _ _ hne, (hread j _).2 htells]
        rfl

end Json

namespace BenchRecord

variable {line : String} {r : BenchRecord} {j : Json} {members : List (String × Json)}

/-- The names of the fields of a record, in the order of an array. -/
def fieldNames : List String := ["name", "iterations", "total_ms", "error"]

/-- The values of the fields tell the record: only the name has to be there. -/
structure Told (r : BenchRecord) (values : String → List Json) : Prop where
  name : values "name" = [ofString r.name]
  iterations : Json.Says Json.TellsCount (values "iterations") r.iterations
  totalMillis : Json.Says Json.TellsDouble (values "total_ms") r.totalMillis
  error : Json.Says (fun j text => j = ofString text) (values "error") r.error

/-- The line is the record's: the marker, the text of a value that tells the record, and any number
of carriage returns. -/
def IsOn (line : String) (r : BenchRecord) : Prop :=
  ∃ payload j values, dropEndWhile (· == '\r') line.toList = "@@bench ".toList ++ payload ∧
    Json.parse? payload = some j ∧ Json.HasFields fieldNames j values ∧ r.Told values

theorem ofJson?_eq_some_iff_of_fields? {f : Json.Fields} (h : Json.fields? fieldNames j = some f) :
    ofJson? j = some r ↔ r.Told fun name => (f.get? name).toList := by
  have hiterations : f.defaulted "iterations" none (Json.Fields.nullable Json.count?) =
      some r.iterations ↔ Json.Says Json.TellsCount (f.get? "iterations").toList r.iterations :=
    Json.defaulted_nullable_eq_some_iff (fun _ _ => Json.count?_eq_some_iff)
      (by simp [Json.TellsCount])
  have hmillis : f.defaulted "total_ms" none (Json.Fields.nullable Json.float?) =
      some r.totalMillis ↔ Json.Says Json.TellsDouble (f.get? "total_ms").toList r.totalMillis :=
    Json.defaulted_nullable_eq_some_iff (fun _ _ => Json.float?_eq_some_iff)
      (by simp [Json.TellsDouble])
  have herror : f.defaulted "error" none (Json.Fields.nullable Json.text?) = some r.error ↔
      Json.Says (fun j text => j = ofString text) (f.get? "error").toList r.error :=
    Json.defaulted_nullable_eq_some_iff (fun _ _ => Json.text?_eq_some_iff) (by simp [ofString])
  rw [fieldNames] at h
  constructor
  · intro hread
    simp only [ofJson?, h, Option.bind_eq_bind, Option.bind_some, Option.bind_eq_some_iff,
      Option.pure_def, Option.some.injEq] at hread
    obtain ⟨_, hname, _, hcounted, _, htimed, _, hthrown, rfl⟩ := hread
    exact ⟨Json.required_text?_eq_some_iff.1 hname, hiterations.1 hcounted, hmillis.1 htimed,
      herror.1 hthrown⟩
  · rintro ⟨hname, hcounted, htimed, hthrown⟩
    simp [ofJson?, h, Json.required_text?_eq_some_iff.2 hname, hiterations.2 hcounted,
      hmillis.2 htimed, herror.2 hthrown]

theorem Told.congr {values values' : String → List Json} (h : r.Told values)
    (heq : ∀ name ∈ fieldNames, values name = values' name) : r.Told values' where
  name := heq "name" (by simp [fieldNames]) ▸ h.name
  iterations := heq "iterations" (by simp [fieldNames]) ▸ h.iterations
  totalMillis := heq "total_ms" (by simp [fieldNames]) ▸ h.totalMillis
  error := heq "error" (by simp [fieldNames]) ▸ h.error

theorem Told.length_le_one {values : String → List Json} {name : String} (h : r.Told values)
    (hname : name ∈ fieldNames) : (values name).length ≤ 1 := by
  simp only [fieldNames, List.mem_cons, List.not_mem_nil, or_false] at hname
  obtain rfl | rfl | rfl | rfl := hname
  · exact (congrArg List.length h.name).le
  · exact h.iterations.length_le_one
  · exact h.totalMillis.length_le_one
  · exact h.error.length_le_one

theorem ofJson?_eq_some_iff :
    ofJson? j = some r ↔ ∃ values, Json.HasFields fieldNames j values ∧ r.Told values := by
  constructor
  · intro hread
    obtain ⟨f, hfields, -⟩ := Option.bind_eq_some_iff.1 hread
    obtain ⟨values, hvalues⟩ := Json.exists_hasFields hfields
    obtain ⟨f', hfields', heq⟩ := hvalues.exists_fields
    exact ⟨values, hvalues, ((ofJson?_eq_some_iff_of_fields? hfields').1 hread).congr heq⟩
  · rintro ⟨values, hvalues, htold⟩
    obtain ⟨f, hfields, heq⟩ := hvalues.exists_fields
    exact (ofJson?_eq_some_iff_of_fields? hfields).2
      (htold.congr fun name hname => (heq name hname).symm)

/-- What is read from a line is the record that is on it. -/
theorem ofLine?_eq_some_iff : ofLine? line = some r ↔ IsOn line r := by
  simp only [ofLine?, IsOn, Option.bind_eq_bind, Option.bind_eq_some_iff, after?,
    dropLiteral?_eq_some_iff, ofJson?_eq_some_iff]
  constructor
  · rintro ⟨payload, hline, j, hparse, values, hvalues, htold⟩
    exact ⟨payload, j, values, hline, hparse, hvalues, htold⟩
  · rintro ⟨payload, j, values, hline, hparse, hvalues, htold⟩
    exact ⟨payload, hline, j, hparse, values, hvalues, htold⟩

theorem ofJson?_ofMembers_eq_some_iff :
    ofJson? (ofMembers members) = some r ↔ r.Told fun name => valuesNamed name members := by
  constructor
  · intro hread
    obtain ⟨f, hfields, -⟩ := Option.bind_eq_some_iff.1 hread
    obtain ⟨honce, -⟩ := Json.fields?_ofMembers_eq_some_iff.1 hfields
    obtain ⟨f', hfields', heq⟩ := (Json.HasFields.object members honce).exists_fields
    exact ((ofJson?_eq_some_iff_of_fields? hfields').1 hread).congr heq
  · intro htold
    exact ofJson?_eq_some_iff.2 ⟨_, .object members fun name => htold.length_le_one, htold⟩

/-- The line is the marker and the text of an object, with white space around it, and any number of
carriage returns. -/
def HoldsObject (line : String) (members : List (String × Json)) : Prop :=
  ∃ before text after ending, Written (ofMembers members) text ∧ IsBlank before ∧ IsBlank after ∧
    (∀ c ∈ ending, c = '\r') ∧
      line = "@@bench " ++ String.ofList (before ++ text ++ after ++ ending)

/-- A line with an object behind the marker is a record's exactly if the members tell the record: a
field is there at most once, only the name has to be, and all other names are free. -/
theorem HoldsObject.isOn_iff (h : HoldsObject line members) :
    IsOn line r ↔ r.Told fun name => valuesNamed name members := by
  obtain ⟨before, text, after, ending, hwritten, hbefore, hafter, hending, rfl⟩ := h
  have hkept : IsBlank (dropEndWhile (· == '\r') after) := fun c hc =>
    hafter c ((List.rdropWhile_prefix ..).subset hc)
  have hparse := Json.parse?_written hwritten hbefore hkept
  have hpayload : after? benchMarker (dropEndWhile (· == '\r')
      ("@@bench " ++ String.ofList (before ++ text ++ after ++ ending)).toList) =
        some (before ++ text ++ dropEndWhile (· == '\r') after) :=
    OutputLine.payload?_written hwritten hending
  rw [← ofLine?_eq_some_iff, ← ofJson?_ofMembers_eq_some_iff]
  simp only [ofLine?, Option.bind_eq_bind, hpayload, Option.bind_some, hparse]

end BenchRecord

end EngineTrials
