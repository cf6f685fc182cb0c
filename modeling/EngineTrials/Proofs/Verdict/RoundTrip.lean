import EngineTrials.Verdict.Json
import EngineTrials.Proofs.Json.Decoding
import EngineTrials.Proofs.Json.Printing

/-! A verdict whose numbers fit in 64 bits is read back from the JSON value made of it, and that
value has a text. -/

namespace EngineTrials

open Json (ofString ofNat ofMembers ofOption)

/-! Members that may be left out. -/

theorem lookup_someMember (name key : String) (value : Option String) :
    (someMember name value).lookup key = if key = name then value.map ofString else none := by
  cases value with
  | none => simp [someMember]
  | some text =>
    by_cases hkey : key = name
    · simp [someMember, hkey]
    · have hne : (key == name) = false := by simpa using hkey
      simp [someMember, hkey, List.lookup_cons, hne]

theorem eq_of_mem_someMember {name : String} {value : Option String} {m : String × Json}
    (hm : m ∈ someMember name value) : ∃ text, m = (name, ofString text) := by
  cases value with
  | none => simp [someMember] at hm
  | some text => exact ⟨text, by simpa [someMember] using hm⟩

theorem defaulted_someMember {fields : Json.Fields} {name : String} {value : Option String}
    (h : fields.get? name = value.map ofString) :
    fields.defaulted name none (Json.Fields.nullable Json.text?) = some value := by
  cases value with
  | none => simp [Json.Fields.defaulted, h]
  | some text =>
    rw [Json.Fields.defaulted, h]
    exact Json.nullable_ofOption (some text)

namespace Mismatch

theorem ofJson?_toJson (m : Mismatch) : ofJson? m.toJson = some m := by
  have hnodup : (m.members.map Prod.fst).Nodup := by simp [members]
  obtain ⟨fields, hfields, -, hget⟩ :=
    Json.fields?_ofMembers ["assertion", "expected", "actual", "description"] hnodup
  rw [ofJson?, toJson, hfields]
  simp [Json.Fields.required, Json.Fields.optional, hget, members, List.lookup_cons,
    Json.nullable_ofOption]

@[simp] theorem spellable_toJson (m : Mismatch) : m.toJson.Spellable := by
  apply Json.spellable_ofMembers
  simp [members]

@[simp] theorem canHold_toJson (m : Mismatch) (room : Nat) :
    m.toJson.canHold (room + 1) = true := by
  apply Json.canHold_ofMembers
  simp [members]

end Mismatch

namespace Exception

/-- The members of an exception. -/
def members (e : Exception) : List (String × Json) :=
  [("name", ofString e.name), ("message", ofString e.message)] ++
    someMember "stack" e.stack ++ someMember "file" (e.file.map Path.text)

theorem toJson_eq (e : Exception) : e.toJson = ofMembers e.members := rfl

theorem nodup_members (e : Exception) : (e.members.map Prod.fst).Nodup := by
  obtain ⟨name, message, stack, file⟩ := e
  cases stack <;> cases file <;> simp [members, someMember]

theorem ofJson?_toJson (e : Exception) : ofJson? e.toJson = some e := by
  obtain ⟨fields, hfields, -, hget⟩ :=
    Json.fields?_ofMembers ["name", "message", "stack", "file"] e.nodup_members
  have hstack : fields.get? "stack" = e.stack.map ofString := by
    rw [hget "stack" (by simp)]
    simp [members, List.lookup_append, lookup_someMember, List.lookup_cons]
  have hfile : fields.get? "file" = (e.file.map Path.text).map ofString := by
    rw [hget "file" (by simp)]
    simp [members, List.lookup_append, lookup_someMember, List.lookup_cons]
  have hpath : (e.file.map Path.text).map Path.mk = e.file := by
    cases e.file <;> rfl
  rw [ofJson?, toJson_eq, hfields]
  simp [Json.Fields.required, hget, members, List.lookup_cons, defaulted_someMember hstack,
    defaulted_someMember hfile, hpath]

theorem exists_of_mem_members {e : Exception} {m : String × Json} (hm : m ∈ e.members) :
    ∃ text, m.2 = ofString text := by
  simp only [members, List.mem_append, List.mem_cons, List.not_mem_nil, or_false] at hm
  obtain ((rfl | rfl) | hstack) | hfile := hm
  · exact ⟨_, rfl⟩
  · exact ⟨_, rfl⟩
  · obtain ⟨text, rfl⟩ := eq_of_mem_someMember hstack
    exact ⟨text, rfl⟩
  · obtain ⟨text, rfl⟩ := eq_of_mem_someMember hfile
    exact ⟨text, rfl⟩

@[simp] theorem spellable_toJson (e : Exception) : e.toJson.Spellable := by
  apply Json.spellable_ofMembers
  intro m hm
  obtain ⟨text, htext⟩ := exists_of_mem_members hm
  simp [htext]

@[simp] theorem canHold_toJson (e : Exception) (room : Nat) :
    e.toJson.canHold (room + 1) = true := by
  apply Json.canHold_ofMembers
  intro m hm
  obtain ⟨text, htext⟩ := exists_of_mem_members hm
  simp [htext]

end Exception

theorem Json.IsVariant.spellable {tag : String} {variant : String × List (String × Json)} {j : Json}
    (h : IsVariant tag variant j) (hfields : ∀ m ∈ variant.2, m.2.Spellable) : j.Spellable := by
  rw [h.eq]
  apply spellable_ofMembers
  intro m hm
  obtain rfl | hm := List.mem_cons.1 hm
  · exact spellable_ofString _
  · exact hfields m hm

namespace LoadFault

/-- The word for a fault, and what the fault says. -/
def variant : LoadFault → String × List (String × Json)
  | .missingDependency requested resolved origin =>
    ("missing_dependency", [("requested", ofString requested), ("resolved", ofString resolved.text),
      ("from", ofString origin.text)])
  | .cyclicLoad chain => ("cyclic_load", [("chain", Json.ofStrings (chain.map Path.text))])
  | .unreadable path message =>
    ("io", [("path", ofString path.text), ("message", ofString message)])

theorem isVariant (fault : LoadFault) : Json.IsVariant "kind" fault.variant fault.toJson := by
  cases fault <;> exact ⟨rfl, by simp [variant]⟩

theorem ofJson?_toJson (fault : LoadFault) : ofJson? fault.toJson = some fault := by
  have hvariant := fault.isVariant
  rw [ofJson?, hvariant.tagged?]
  cases fault with
  | missingDependency requested resolved origin =>
    obtain ⟨fields, hfields, hget⟩ := hvariant.fields? ["requested", "resolved", "from"]
    simp only [variant] at hfields hget ⊢
    simp [Json.variant?_ofString, hfields, Json.Fields.required, hget, List.lookup_cons]
  | cyclicLoad chain =>
    obtain ⟨fields, hfields, hget⟩ := hvariant.fields? ["chain"]
    simp only [variant] at hfields hget ⊢
    simp [Json.variant?_ofString, hfields, Json.Fields.required, hget, Json.list?_ofStrings,
      Function.comp_def]
  | unreadable path message =>
    obtain ⟨fields, hfields, hget⟩ := hvariant.fields? ["path", "message"]
    simp only [variant] at hfields hget ⊢
    simp [Json.variant?_ofString, hfields, Json.Fields.required, hget, List.lookup_cons]

@[simp] theorem spellable_toJson (fault : LoadFault) : fault.toJson.Spellable := by
  apply fault.isVariant.spellable
  cases fault <;> simp [variant]

@[simp] theorem canHold_toJson (fault : LoadFault) (room : Nat) :
    fault.toJson.canHold (room + 2) = true := by
  apply fault.isVariant.canHold
  cases fault <;> simp [variant]

end LoadFault

namespace Failure

/-- The number of mismatches is of 64 bits. -/
def Fits : Failure → Prop
  | .mismatch _ total => total ≤ Json.maxCount
  | .noSentinel _ => True

/-- The word for a failure, and what the failure says. -/
def variant : Failure → String × List (String × Json)
  | .mismatch first total =>
    ("assertion_mismatch", [("mismatch", first.toJson), ("total", ofNat total)])
  | .noSentinel actual => ("sentinel_mismatch", [("actual", ofString actual)])

theorem isVariant (failure : Failure) :
    Json.IsVariant "kind" failure.variant failure.toJson := by
  cases failure <;> exact ⟨rfl, by simp [variant]⟩

theorem ofJson?_toJson {failure : Failure} (h : failure.Fits) (held : Bool) :
    ofJson? held failure.toJson = some failure := by
  have hvariant := failure.isVariant
  rw [ofJson?, hvariant.tagged?]
  cases failure with
  | mismatch first total =>
    have htotal : Json.count? (ofNat total) = some total := Json.count?_ofNat h
    obtain ⟨fields, hfields, hget⟩ := hvariant.fields? ["mismatch", "total"]
    simp only [variant] at hfields hget ⊢
    simp [Json.variant?_ofString, hfields, Json.Fields.required, hget, List.lookup_cons,
      Mismatch.ofJson?_toJson, htotal]
  | noSentinel actual =>
    obtain ⟨fields, hfields, hget⟩ := hvariant.fields? ["actual"]
    simp only [variant] at hfields hget ⊢
    simp [Json.variant?_ofString, hfields, Json.Fields.required, hget]

@[simp] theorem spellable_toJson (failure : Failure) : failure.toJson.Spellable := by
  apply failure.isVariant.spellable
  cases failure <;> simp [variant]

theorem canHold_toJson {failure : Failure} (h : failure.Fits) (room : Nat) :
    failure.toJson.canHold (room + 2) = true := by
  apply failure.isVariant.canHold
  cases failure with
  | mismatch first total =>
    have htotal := Json.canHold_ofNat (show total ≤ Json.maxCount from h) (room + 1)
    simp [variant, htotal]
  | noSentinel actual => simp [variant]

end Failure

namespace Trouble

/-- The word for a trouble, and what the trouble says. -/
def variant : Trouble → String × List (String × Json)
  | .uncaught exception => ("uncaught_exception", [("exception", exception.toJson)])
  | .load fault => ("load", [("error", fault.toJson)])

theorem isVariant (trouble : Trouble) :
    Json.IsVariant "cause" trouble.variant trouble.toJson := by
  cases trouble <;> exact ⟨rfl, by simp [variant]⟩

theorem ofJson?_toJson (trouble : Trouble) (held : Bool) :
    ofJson? held trouble.toJson = some trouble := by
  have hvariant := trouble.isVariant
  rw [ofJson?, hvariant.tagged?]
  cases trouble with
  | uncaught exception =>
    obtain ⟨fields, hfields, hget⟩ := hvariant.fields? ["exception"]
    simp only [variant] at hfields hget ⊢
    simp [Json.variant?_ofString, hfields, Json.Fields.required, hget, Exception.ofJson?_toJson]
  | load fault =>
    obtain ⟨fields, hfields, hget⟩ := hvariant.fields? ["error"]
    simp only [variant] at hfields hget ⊢
    simp [Json.variant?_ofString, hfields, Json.Fields.required, hget, LoadFault.ofJson?_toJson]

@[simp] theorem spellable_toJson (trouble : Trouble) : trouble.toJson.Spellable := by
  apply trouble.isVariant.spellable
  cases trouble <;> simp [variant]

theorem canHold_toJson (trouble : Trouble) (room : Nat) :
    trouble.toJson.canHold (room + 3) = true := by
  apply trouble.isVariant.canHold
  cases trouble <;> simp [variant]

end Trouble

namespace Crash

/-- The limit of a timeout is of 64 bits. -/
def Fits : Crash → Prop
  | .timeout limit => limit ≤ Json.maxCount
  | .abnormal _ => True

/-- The word for a crash, and what the crash says. -/
def variant : Crash → String × List (String × Json)
  | .timeout limit => ("timeout", [("limit_ms", ofNat limit)])
  | .abnormal message => ("abnormal", [("message", ofString message)])

theorem isVariant (crash : Crash) : Json.IsVariant "kind" crash.variant crash.toJson := by
  cases crash <;> exact ⟨rfl, by simp [variant]⟩

theorem ofJson?_toJson {crash : Crash} (h : crash.Fits) (held : Bool) :
    ofJson? held crash.toJson = some crash := by
  have hvariant := crash.isVariant
  rw [ofJson?, hvariant.tagged?]
  cases crash with
  | timeout limit =>
    have hlimit : Json.count? (ofNat limit) = some limit := Json.count?_ofNat h
    obtain ⟨fields, hfields, hget⟩ := hvariant.fields? ["limit_ms"]
    simp only [variant] at hfields hget ⊢
    simp [Json.variant?_ofString, hfields, Json.Fields.required, hget, hlimit]
  | abnormal message =>
    obtain ⟨fields, hfields, hget⟩ := hvariant.fields? ["message"]
    simp only [variant] at hfields hget ⊢
    simp [Json.variant?_ofString, hfields, Json.Fields.required, hget]

@[simp] theorem spellable_toJson (crash : Crash) : crash.toJson.Spellable := by
  apply crash.isVariant.spellable
  cases crash <;> simp [variant]

theorem canHold_toJson {crash : Crash} (h : crash.Fits) (room : Nat) :
    crash.toJson.canHold (room + 1) = true := by
  apply crash.isVariant.canHold
  cases crash with
  | timeout limit =>
    have hlimit := Json.canHold_ofNat (show limit ≤ Json.maxCount from h) room
    simp [variant, hlimit]
  | abnormal message => simp [variant]

end Crash

namespace Verdict

/-- The numbers in a verdict are of 64 bits. -/
def Fits : Verdict → Prop
  | .failed failure => failure.Fits
  | .crashed crash => crash.Fits
  | _ => True

/-- The outcome stands in front of the detail. -/
theorem ofJson?_ofMembers {outcome : String} (houtcome : outcome ∈ outcomes) (detail : Json)
    (room : Nat) :
    ofJson? (room + 1) (ofMembers [("outcome", ofString outcome), ("detail", detail)]) =
      ofParts? room false outcome (some detail) := by
  have hname : outcome? (ofString outcome) = some outcome := by
    simpa [outcome?, ofString] using Json.variant?_ofString houtcome false
  have htimes : Json.timesNamed "outcome"
      [(some "outcome", ofString outcome), (some "detail", detail)] = 1 := rfl
  have htimes' : Json.timesNamed "detail"
      [(some "outcome", ofString outcome), (some "detail", detail)] = 1 := rfl
  simp [ofJson?, ofMembers, htimes, htimes', List.lookup_cons, hname, List.findIdx_cons]

theorem ofJson?_toJson {v : Verdict} (h : v.Fits) (room : Nat) :
    ofJson? (room + 4) v.toJson = some v := by
  cases v with
  | passed => rfl
  | failed failure =>
    rw [toJson, ofJson?_ofMembers (by simp [outcomes]), ofParts?,
      if_pos (Failure.canHold_toJson h _), Failure.ofJson?_toJson h, Option.map_some]
  | errored trouble => 
    rw [toJson, ofJson?_ofMembers (by simp [outcomes]), ofParts?,
      if_pos (trouble.canHold_toJson _), Trouble.ofJson?_toJson, Option.map_some]
  | crashed crash =>
    rw [toJson, ofJson?_ofMembers (by simp [outcomes]), ofParts?,
      if_pos (Crash.canHold_toJson h _), Crash.ofJson?_toJson h, Option.map_some]
  | skipped reason => rfl

@[simp] theorem spellable_toJson (v : Verdict) : v.toJson.Spellable := by
  cases v <;> exact Json.spellable_ofMembers (by simp)

end Verdict

end EngineTrials
