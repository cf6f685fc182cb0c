import EngineTrials.Program.Driver
import EngineTrials.Proofs.Json.Decoding
import EngineTrials.Proofs.Program.Literal

/-! The text that an engine runs for a fixture hands over the settings and the program unchanged:
each of the two literals is one line, JSON readers read it whole as what it was made of, and neither
ends before the parenthesis after it. -/

namespace EngineTrials

open ScriptText

/-- A whole number of any size, written with digits only. -/
def Json.natural? : Json → Option Nat
  | .number numeral =>
    let digits := numeral.toList
    if digits ≠ [] ∧ digits.all Char.isDigit = true then some (valueOfDigits digits) else none
  | _ => none

theorem Json.natural?_ofNat (n : Nat) : natural? (ofNat n) = some n := by
  simp [natural?, ofNat, valueOfDigits_toDigits, all_isDigit_toDigits, Nat.toDigits_ne_nil]

namespace LineRange

def members (r : LineRange) : List (String × Json) :=
  [("path", .ofString r.path), ("start", .ofNat r.start), ("lines", .ofNat r.lines)]

def ofJson? (j : Json) : Option LineRange := do
  let fields ← j.fields? ["path", "start", "lines"]
  return { path := ← fields.required "path" Json.text?
           start := ← fields.required "start" Json.natural?
           lines := ← fields.required "lines" Json.natural? }

theorem ofJson?_members (r : LineRange) : ofJson? (.ofMembers r.members) = some r := by
  have hnodup : (r.members.map Prod.fst).Nodup := by simp [members]
  obtain ⟨fields, hfields, -, hget⟩ := Json.fields?_ofMembers ["path", "start", "lines"] hnodup
  rw [ofJson?, hfields]
  simp [Json.Fields.required, hget, members, List.lookup_cons, Json.natural?_ofNat]

end LineRange

namespace Program

def ofJson? (j : Json) : Option Program := do
  let fields ← j.fields? ["source", "segments"]
  return { source := ← fields.required "source" Json.text?
           ranges := ← fields.required "segments" (Json.list? LineRange.ofJson?) }

def members (program : Program) : List (String × Json) :=
  [("source", .ofString program.source),
    ("segments", .array (program.ranges.map fun r => .ofMembers r.members))]

theorem toJson_eq (program : Program) : program.toJson = .ofMembers program.members := rfl

theorem ofJson?_toJson (program : Program) : ofJson? program.toJson = some program := by
  have hnodup : (program.members.map Prod.fst).Nodup := by simp [members]
  obtain ⟨fields, hfields, -, hget⟩ := Json.fields?_ofMembers ["source", "segments"] hnodup
  have hranges : Json.list? LineRange.ofJson?
      (.array (program.ranges.map fun r => .ofMembers r.members)) = some program.ranges :=
    Json.list?_map fun r _ => r.ofJson?_members
  rw [ofJson?, toJson_eq, hfields]
  simp [Json.Fields.required, hget, members, List.lookup_cons, hranges]

theorem spellable_toJson (program : Program) : program.toJson.Spellable := by
  have hranges : Json.Spellable (.array (program.ranges.map fun r => .ofMembers r.members)) := by
    apply Json.Spellable.array
    intro item hitem
    obtain ⟨r, -, rfl⟩ := List.mem_map.1 hitem
    apply Json.spellable_ofMembers
    simp [LineRange.members]
  rw [toJson_eq]
  apply Json.spellable_ofMembers
  simp [members, hranges]

end Program

/-- A literal in a script holds a value: it is one line, it is read whole as the value, and in front
of a closing parenthesis it ends where the parenthesis stands. -/
structure HoldsValue (literal : String) (j : Json) : Prop where
  oneLine : ∀ c ∈ literal.toList, c ≠ '\n' ∧ c ≠ '\r' ∧ c ≠ '\u2028' ∧ c ≠ '\u2029'
  whole : Json.parse? literal.toList = some j
  ends : ∀ rest, Json.value? literal.length (literal.toList ++ ')' :: rest) = some (j, ')' :: rest)

theorem holdsValue_scriptLiteral {j : Json} (h : j.Spellable) :
    HoldsValue (scriptLiteral j) j where
  oneLine := by
    intro c hc
    have hterminator := not_isTerminator_of_mem_scriptLiteral h hc
    simpa [isTerminator, and_assoc] using hterminator
  whole := by
    have hread := Json.parse?_written (written_scriptLiteral h) Json.isBlank_nil Json.isBlank_nil
    simpa using hread
  ends := by
    intro rest
    exact (written_scriptLiteral h).read (Nat.le_of_eq String.length_toList) (.cons (by decide))

example : (scriptLiteral (.ofString "\\\u2028\"")).toList =
    ['"', '\\', '\\', '\\', 'u', '2', '0', '2', '8', '\\', '"', '"'] := by rfl

theorem spellable_driverSettings (trace : Bool) (marker : String) :
    (driverSettings trace marker).Spellable := by
  apply Json.spellable_ofMembers
  simp [Json.Spellable.bool]

/-- After the prelude stand two calls, one with the settings and one with the program, and nothing
in a script, a file name or a marker changes that. -/
theorem driverSource_holds (script : LoadedScript) (trace : Bool) (marker : String) :
    ∃ settings program : String,
      driverSource script trace marker =
        preludeSource ++ ("__harness.configure(" ++ settings ++ ");\n" ++
          "__harness.run(" ++ program ++ ");\n") ∧
      HoldsValue settings
        (.object [(some "trace", .bool trace), (some "marker", .string (some marker))]) ∧
      ∃ j, HoldsValue program j ∧ Program.ofJson? j = some (Program.assemble script) := by
  have hsettings := holdsValue_scriptLiteral (spellable_driverSettings trace marker)
  have hprogram := holdsValue_scriptLiteral (Program.assemble script).spellable_toJson
  have hdriver : driverSource script trace marker =
      preludeSource ++
        ("__harness.configure(" ++ scriptLiteral (driverSettings trace marker) ++ ");\n" ++
          "__harness.run(" ++ scriptLiteral (Program.assemble script).toJson ++ ");\n") := rfl
  exact ⟨_, _, hdriver, hsettings, _, hprogram, Program.ofJson?_toJson _⟩

end EngineTrials
