import EngineTrials.Engine.Record
import EngineTrials.Proofs.Json.Decoding
import EngineTrials.Proofs.Json.Printing
import EngineTrials.Proofs.Text.Trimming

/-! Records in the output. A line with the marker is read as a record exactly if the object on it
tells this record, in whatever order, spelling and company its members stand; every other object
behind the marker is malformed, and what is wrong with it can be said in terms of one record. -/

namespace EngineTrials

open Text
open Json (IsBlank Written ofMembers ofString valuesNamed valuesOfOption)

namespace Record

/-- The name of the kind of a record. -/
def event : Record → String
  | .assertion _ => "assertion"
  | .status _ => "status"
  | .trace _ => "trace"
  | .completed _ => "completed"
  | .threw _ => "threw"

/-- The fields that a record cannot do without. -/
def required : Record → List (String × String)
  | .assertion m => [("assertion", m.assertion), ("expected", m.expected), ("actual", m.actual)]
  | .status message => [("message", message)]
  | .trace message => [("message", message)]
  | .completed value => [("type", value.kind), ("value", value.display)]
  | .threw e => [("name", e.name), ("message", e.message)]

/-- The fields that may be null or left out. -/
def optional : Record → List (String × Option String)
  | .assertion m => [("description", m.description)]
  | .threw e => [("stack", e.stack), ("file", e.file.map Path.text)]
  | _ => []

/-- The names of the fields that a record must have. -/
def requiredNames (r : Record) : List String := r.required.map Prod.fst

/-- The names of the fields that a record may have. -/
def optionalNames (r : Record) : List String := r.optional.map Prod.fst

/-- The members tell the record: its tag and its fields are there once, an optional field that is
not set is null or not there, and all other names are free. -/
structure Told (r : Record) (members : List (String × Json)) : Prop where
  event : valuesNamed "event" members = [ofString r.event]
  required : ∀ field ∈ r.required, valuesNamed field.1 members = [ofString field.2]
  optional : ∀ field ∈ r.optional, valuesNamed field.1 members ∈ valuesOfOption field.2

/-- The members name the kind of the record. -/
def Announced (r : Record) (members : List (String × Json)) : Prop :=
  ("event", ofString r.event) ∈ members

/-- What is wrong with members that should tell a record of the kind of `r`. -/
inductive Wrong (r : Record) (members : List (String × Json)) : Prop
  | twice {name} (hname : name ∈ "event" :: (r.requiredNames ++ r.optionalNames))
    (htwice : 2 ≤ (valuesNamed name members).length)
  | missing {name} (hname : name ∈ r.requiredNames) (hmissing : valuesNamed name members = [])
  | noText {name value} (hname : name ∈ r.requiredNames) (hmember : (name, value) ∈ members)
    (htext : ∀ text, value ≠ ofString text)
  | noOption {name value} (hname : name ∈ r.optionalNames) (hmember : (name, value) ∈ members)
    (hnull : value ≠ .null) (htext : ∀ text, value ≠ ofString text)

/-- The values can be held: no number is out of range, and not too many containers stand around one
another, the object itself counted. -/
def Holdable (members : List (String × Json)) : Prop :=
  ∀ m ∈ members, m.2.canHold (Json.depthLimit - 1) = true

section

variable {members : List (String × Json)} {r : Record} {name : String} {value : Json}

/-! Reading an object. -/

theorem event_mem_events (r : Record) : r.event ∈ events := by
  cases r <;> simp [event, events]

theorem event_notMem_names (r : Record) : "event" ∉ r.requiredNames ++ r.optionalNames := by
  cases r <;> simp [requiredNames, optionalNames, required, optional]

theorem Told.exists_text (h : r.Told members) (hname : name ∈ r.requiredNames) :
    ∃ text, valuesNamed name members = [ofString text] := by
  obtain ⟨field, hfield, rfl⟩ := List.mem_map.1 hname
  exact ⟨field.2, h.required field hfield⟩

theorem Told.exists_option (h : r.Told members) (hname : name ∈ r.optionalNames) :
    ∃ text?, valuesNamed name members ∈ valuesOfOption text? := by
  obtain ⟨field, hfield, rfl⟩ := List.mem_map.1 hname
  exact ⟨field.2, h.optional field hfield⟩

theorem Told.length_le_one (h : r.Told members)
    (hname : name ∈ "event" :: (r.requiredNames ++ r.optionalNames)) :
    (valuesNamed name members).length ≤ 1 := by
  obtain rfl | hname := List.mem_cons.1 hname
  · exact (congrArg List.length h.event).le
  obtain hname | hname := List.mem_append.1 hname
  · obtain ⟨text, hvalues⟩ := h.exists_text hname
    exact (congrArg List.length hvalues).le
  · obtain ⟨text?, hvalues⟩ := h.exists_option hname
    exact Json.length_le_one_of_mem_valuesOfOption hvalues

/-- A record is told if its tag is found and its fields are found among the other members. -/
theorem told_iff : r.Told members ↔ valuesNamed "event" members = [ofString r.event] ∧
    ∃ f, Json.fields? (r.requiredNames ++ r.optionalNames)
        (ofMembers (members.filter fun m => m.1 != "event")) = some f ∧
      (∀ field ∈ r.required, f.required field.1 Json.text? = some field.2) ∧
        ∀ field ∈ r.optional, f.optional field.1 Json.text? = some field.2 := by
  have hrequiredName : ∀ field ∈ r.required, field.1 ∈ r.requiredNames ++ r.optionalNames :=
    fun _ hfield => List.mem_append_left _ (List.mem_map_of_mem hfield)
  have hoptionalName : ∀ field ∈ r.optional, field.1 ∈ r.requiredNames ++ r.optionalNames :=
    fun _ hfield => List.mem_append_right _ (List.mem_map_of_mem hfield)
  have hvalues : ∀ name ∈ r.requiredNames ++ r.optionalNames,
      valuesNamed name (members.filter fun m => m.1 != "event") = valuesNamed name members := by
    intro name hname
    apply Json.valuesNamed_filter_ne
    rintro rfl
    exact r.event_notMem_names hname
  constructor
  · intro h
    have honce : ∀ name ∈ r.requiredNames ++ r.optionalNames, (valuesNamed name
        (members.filter fun m => m.1 != "event")).length ≤ 1 := by
      intro name hname
      rw [hvalues name hname]
      exact h.length_le_one (List.mem_cons_of_mem _ hname)
    have hfields := Json.fields?_ofMembers_eq_some_iff.2 ⟨honce, rfl⟩
    refine ⟨h.event, _, hfields, fun field hfield => ?_, fun field hfield => ?_⟩
    · rw [Json.required_eq_some_iff hfields (hrequiredName field hfield),
        hvalues _ (hrequiredName field hfield)]
      exact h.required field hfield
    · rw [Json.optional_eq_some_iff hfields (hoptionalName field hfield),
        hvalues _ (hoptionalName field hfield)]
      exact h.optional field hfield
  · rintro ⟨hevent, f, hfields, hrequired, hoptional⟩
    refine ⟨hevent, fun field hfield => ?_, fun field hfield => ?_⟩
    · have hread := hrequired field hfield
      rwa [Json.required_eq_some_iff hfields (hrequiredName field hfield),
        hvalues _ (hrequiredName field hfield)] at hread
    · have hread := hoptional field hfield
      rwa [Json.optional_eq_some_iff hfields (hoptionalName field hfield),
        hvalues _ (hoptionalName field hfield)] at hread

theorem ofJson?_ofMembers_eq_some_iff :
    ofJson? (ofMembers members) = some r ↔ Holdable members ∧ r.Told members := by
  have hhold : (ofMembers members).canHold Json.depthLimit = true ↔ Holdable members :=
    Json.canHold_ofMembers_iff
  rw [ofJson?, Option.ite_none_right_eq_some, hhold, told_iff]
  refine and_congr_right fun _ => ?_
  constructor
  · intro h
    obtain ⟨⟨tag, rest⟩, htag, hvariant⟩ := Option.bind_eq_some_iff.1 h
    obtain ⟨hevent, rfl⟩ := Json.tagged?_ofMembers_eq_some_iff.1 htag
    obtain ⟨event, hname, hbody⟩ := Option.bind_eq_some_iff.1 hvariant
    obtain ⟨rfl, hmem⟩ := Json.variant?_eq_some_iff.1 hname
    simp only [events, List.mem_cons, List.not_mem_nil, or_false] at hmem
    -- by the name of the kind: a mismatch, a status, a trace, a completion or an exception
    obtain rfl | rfl | rfl | rfl | rfl := hmem <;>
      simp only [Mismatch.ofJson?, Option.bind_eq_bind, Option.bind_eq_some_iff, Option.pure_def,
        Option.some_inj, String.reduceEq, imp_self] at hbody
    · obtain ⟨m, ⟨f, hfields, assertion, hassertion, expected, hexpected, actual, hactual,
        description, hdescription, rfl⟩, rfl⟩ := hbody
      exact ⟨hevent, f, hfields, by simp [required, hassertion, hexpected, hactual],
        by simp [optional, hdescription]⟩
    · obtain ⟨f, hfields, message, hmessage, rfl⟩ := hbody
      exact ⟨hevent, f, hfields, by simp [required, hmessage], by simp [optional]⟩
    · obtain ⟨f, hfields, message, hmessage, rfl⟩ := hbody
      exact ⟨hevent, f, hfields, by simp [required, hmessage], by simp [optional]⟩
    · obtain ⟨f, hfields, kind, hkind, display, hdisplay, rfl⟩ := hbody
      exact ⟨hevent, f, hfields, by simp [required, hkind, hdisplay], by simp [optional]⟩
    · obtain ⟨f, hfields, name, hname, message, hmessage, stack, hstack, file, hfile, rfl⟩ := hbody
      exact ⟨hevent, f, hfields, by simp [required, hname, hmessage],
        by simp [optional, hstack, hfile, Function.comp_def]⟩
  · rintro ⟨hevent, f, hfields, hrequired, hoptional⟩
    have htag := Json.tagged?_ofMembers_eq_some_iff.2 ⟨hevent, rfl⟩
    have hvariant := Json.variant?_eq_some_iff.2 ⟨rfl, r.event_mem_events⟩
    simp only [htag, hvariant, Option.bind_eq_bind, Option.bind_some]
    cases r <;>
      simp only [requiredNames, optionalNames, required, optional, List.map_cons, List.map_nil,
        List.cons_append, List.nil_append, List.forall_mem_cons] at hfields hrequired hoptional <;>
      simp [event, Mismatch.ofJson?, hfields, hrequired, hoptional, Function.comp_def]

/-! What is wrong with an object that tells no record. -/

theorem Told.not_wrong (h : r.Told members) : ¬ r.Wrong members := by
  intro hwrong
  cases hwrong with
  | twice hname htwice =>
    have honce := h.length_le_one hname
    omega
  | missing hname hmissing =>
    obtain ⟨text, hvalues⟩ := h.exists_text hname
    rw [hmissing] at hvalues
    contradiction
  | noText hname hmember htext =>
    obtain ⟨text, hvalues⟩ := h.exists_text hname
    rw [← Json.mem_valuesNamed_iff, hvalues, List.mem_singleton] at hmember
    exact htext text hmember
  | noOption hname hmember hnull htext =>
    obtain ⟨text?, hvalues⟩ := h.exists_option hname
    rw [← Json.mem_valuesNamed_iff] at hmember
    obtain rfl | ⟨text, rfl⟩ := Json.eq_of_mem_valuesOfOption hvalues hmember
    · exact hnull rfl
    · exact htext text rfl

theorem eq_singleton_of_not_wrong (h : ¬ r.Wrong members)
    (hname : name ∈ "event" :: (r.requiredNames ++ r.optionalNames))
    (hvalue : value ∈ valuesNamed name members) : valuesNamed name members = [value] := by
  have honce : (valuesNamed name members).length ≤ 1 := by
    by_contra htwice
    exact h (.twice hname (by omega))
  obtain ⟨only, honly⟩ :=
    List.length_eq_one_iff.1 (Nat.le_antisymm honce (List.length_pos_of_mem hvalue))
  rw [honly, List.mem_singleton] at hvalue
  rw [honly, hvalue]

theorem exists_text_of_not_wrong (h : ¬ r.Wrong members) (hname : name ∈ r.requiredNames) :
    ∃ text, valuesNamed name members = [ofString text] := by
  obtain ⟨value, hvalue⟩ := List.exists_mem_of_ne_nil _ fun hmissing => h (.missing hname hmissing)
  have hvalues := eq_singleton_of_not_wrong h (by simp [hname]) hvalue
  by_contra htext
  refine h (.noText hname (Json.mem_valuesNamed_iff.1 hvalue) fun text htold => ?_)
  exact htext ⟨text, htold ▸ hvalues⟩

theorem exists_option_of_not_wrong (h : ¬ r.Wrong members) (hname : name ∈ r.optionalNames) :
    ∃ text?, valuesNamed name members ∈ valuesOfOption text? := by
  by_cases hmissing : valuesNamed name members = []
  · exact ⟨none, by simp [hmissing, valuesOfOption]⟩
  obtain ⟨value, hvalue⟩ := List.exists_mem_of_ne_nil _ hmissing
  have hvalues := eq_singleton_of_not_wrong h (by simp [hname]) hvalue
  by_contra hoption
  refine h (.noOption hname (Json.mem_valuesNamed_iff.1 hvalue) ?_ ?_)
  · rintro rfl
    exact hoption ⟨none, by simp [hvalues, valuesOfOption]⟩
  · rintro text rfl
    exact hoption ⟨some text, by simp [hvalues, valuesOfOption]⟩

/-- Where nothing is wrong, a record of the kind is told. -/
theorem exists_told (hannounced : r.Announced members) (h : ¬ r.Wrong members) :
    ∃ told : Record, told.Told members := by
  have hevent : valuesNamed "event" members = [ofString r.event] :=
    eq_singleton_of_not_wrong h List.mem_cons_self (Json.mem_valuesNamed_iff.2 hannounced)
  have hrequired : ∀ name ∈ r.requiredNames, ∃ text, valuesNamed name members = [ofString text] :=
    fun _ => exists_text_of_not_wrong h
  have hoptional : ∀ name ∈ r.optionalNames, ∃ text?, valuesNamed name members ∈
      valuesOfOption text? := fun _ => exists_option_of_not_wrong h
  cases r with
  | assertion m =>
    obtain ⟨assertion, hassertion⟩ := hrequired "assertion" (by simp [requiredNames, required])
    obtain ⟨expected, hexpected⟩ := hrequired "expected" (by simp [requiredNames, required])
    obtain ⟨actual, hactual⟩ := hrequired "actual" (by simp [requiredNames, required])
    obtain ⟨description, hdescription⟩ :=
      hoptional "description" (by simp [optionalNames, optional])
    exact ⟨.assertion ⟨assertion, expected, actual, description⟩, hevent,
      by simp [required, hassertion, hexpected, hactual], by simp [optional, hdescription]⟩
  | status _ =>
    obtain ⟨message, hmessage⟩ := hrequired "message" (by simp [requiredNames, required])
    exact ⟨.status message, hevent, by simp [required, hmessage], by simp [optional]⟩
  | trace _ =>
    obtain ⟨message, hmessage⟩ := hrequired "message" (by simp [requiredNames, required])
    exact ⟨.trace message, hevent, by simp [required, hmessage], by simp [optional]⟩
  | completed _ =>
    obtain ⟨kind, hkind⟩ := hrequired "type" (by simp [requiredNames, required])
    obtain ⟨display, hdisplay⟩ := hrequired "value" (by simp [requiredNames, required])
    exact ⟨.completed ⟨kind, display⟩, hevent, by simp [required, hkind, hdisplay],
      by simp [optional]⟩
  | threw _ =>
    obtain ⟨name, hname⟩ := hrequired "name" (by simp [requiredNames, required])
    obtain ⟨message, hmessage⟩ := hrequired "message" (by simp [requiredNames, required])
    obtain ⟨stack, hstack⟩ := hoptional "stack" (by simp [optionalNames, optional])
    obtain ⟨file, hfile⟩ := hoptional "file" (by simp [optionalNames, optional])
    exact ⟨.threw ⟨name, message, stack, file.map Path.mk⟩, hevent,
      by simp [required, hname, hmessage],
      by simp [optional, hstack, hfile, Function.comp_def]⟩

/-- What is wrong with members is wrong for every record of the kind. -/
theorem Wrong.of_event_eq {other : Record} (h : r.Wrong members) (hevent : r.event = other.event) :
    other.Wrong members := by
  have hrequired : r.requiredNames = other.requiredNames := by
    cases r <;> cases other <;> first | rfl | simp [event] at hevent
  have hoptional : r.optionalNames = other.optionalNames := by
    cases r <;> cases other <;> first | rfl | simp [event] at hevent
  cases h with
  | twice hname htwice => exact .twice (hrequired ▸ hoptional ▸ hname) htwice
  | missing hname hmissing => exact .missing (hrequired ▸ hname) hmissing
  | noText hname hmember htext => exact .noText (hrequired ▸ hname) hmember htext
  | noOption hname hmember hnull htext => exact .noOption (hoptional ▸ hname) hmember hnull htext

theorem ofJson?_ofMembers_eq_none_iff : ofJson? (ofMembers members) = none ↔
    ¬ Holdable members ∨ (∀ r : Record, ¬ r.Announced members) ∨
      ∃ r : Record, r.Announced members ∧ r.Wrong members := by
  rw [Option.eq_none_iff_forall_ne_some]
  simp only [ne_eq, ofJson?_ofMembers_eq_some_iff]
  constructor
  · intro h
    by_cases hhold : Holdable members
    · by_cases hannounced : ∃ r : Record, r.Announced members
      · obtain ⟨r, hannounced⟩ := hannounced
        refine .inr (.inr ⟨r, hannounced, ?_⟩)
        by_contra hright
        obtain ⟨told, htold⟩ := exists_told hannounced hright
        exact h told ⟨hhold, htold⟩
      · exact .inr (.inl fun r hr => hannounced ⟨r, hr⟩)
    · exact .inl hhold
  · rintro h told ⟨hhold, htold⟩
    have hannounced : told.Announced members := by
      rw [Announced, ← Json.mem_valuesNamed_iff, htold.event, List.mem_singleton]
    obtain hheld | hsilent | ⟨r, hr, hwrong⟩ := h
    · exact hheld hhold
    · exact hsilent told hannounced
    · rw [Announced, ← Json.mem_valuesNamed_iff, htold.event, List.mem_singleton] at hr
      exact htold.not_wrong (hwrong.of_event_eq (Json.ofString_injective hr))

end

end Record

namespace OutputLine

variable {marker line : String} {members : List (String × Json)} {text before after : List Char}

theorem read_eq_plain_iff : read marker line = .plain ↔
    ¬ marker.toList <+: dropEndWhile (· == '\r') line.toList := by
  rw [read, payload?, after?]
  cases hpayload : dropLiteral? marker.toList (dropEndWhile (· == '\r') line.toList) with
  | none =>
    refine iff_of_true rfl ?_
    rintro ⟨payload, hline⟩
    rw [dropLiteral?_eq_some_iff.2 hline.symm] at hpayload
    contradiction
  | some payload =>
    refine iff_of_false ?_ (not_not_intro ⟨payload, (dropLiteral?_eq_some_iff.1 hpayload).symm⟩)
    intro hread
    dsimp only at hread
    split at hread <;> contradiction

/-- The payload of a line with an object is the object with the white space around it, except for
the carriage returns that end the line. -/
theorem payload?_written {ending : List Char} (hwritten : Written (ofMembers members) text)
    (hending : ∀ c ∈ ending, c = '\r') :
    payload? marker (marker ++ String.ofList (before ++ text ++ after ++ ending)) =
      some (before ++ text ++ dropEndWhile (· == '\r') after) := by
  obtain ⟨body, rfl⟩ := hwritten.closed
  have hline : (marker ++ String.ofList (before ++ (body ++ ['\x7d']) ++ after ++ ending)).toList =
      (marker.toList ++ before ++ body) ++ '\x7d' :: after ++ ending := by
    simp
  rw [payload?, after?, dropLiteral?_eq_some_iff, hline,
    dropEndWhile_append fun c hc => beq_iff_eq.2 (hending c hc),
    dropEndWhile_append_cons (by decide)]
  simp

/-- A line with an object behind the marker is a record exactly if the members tell the record. It
is malformed, and quoted without the marker, if a value cannot be held, no kind of record is named,
or something is wrong for the kind that is. A line that does not start with the marker is plain. -/
theorem read_object {ending : List Char} (hwritten : Written (ofMembers members) text)
    (hbefore : IsBlank before) (hafter : IsBlank after) (hending : ∀ c ∈ ending, c = '\r')
    (hline : line = marker ++ String.ofList (before ++ text ++ after ++ ending)) :
    (∀ r, read marker line = .record r ↔ Record.Holdable members ∧ r.Told members) ∧
      (read marker line =
          .malformed (String.ofList (before ++ text ++ dropEndWhile (· == '\r') after)) ↔
        ¬ Record.Holdable members ∨ (∀ r : Record, ¬ r.Announced members) ∨
          ∃ r : Record, r.Announced members ∧ r.Wrong members) ∧
      ∀ other, read marker other = .plain ↔
        ¬ marker.toList <+: dropEndWhile (· == '\r') other.toList := by
  have hkept : IsBlank (dropEndWhile (· == '\r') after) := fun c hc =>
    hafter c ((List.rdropWhile_prefix ..).subset hc)
  have hparse := Json.parse?_written hwritten hbefore hkept
  refine ⟨fun r => ?_, ?_, fun other => read_eq_plain_iff⟩
  · rw [← Record.ofJson?_ofMembers_eq_some_iff, read, hline, payload?_written hwritten hending]
    simp only [hparse, Option.bind_some]
    cases Record.ofJson? (ofMembers members) <;> simp
  · rw [← Record.ofJson?_ofMembers_eq_none_iff, read, hline, payload?_written hwritten hending]
    simp only [hparse, Option.bind_some]
    cases Record.ofJson? (ofMembers members) <;> simp

/-- The text of a status with the tag last, an escape in the message and another member. -/
def spacedStatus : String :=
  "\x7b\"level\":[null], \"message\" : \"\\u0061\",\"event\":\"status\"\x7d"

def spacedStatusMembers : List (String × Json) :=
  [("level", .array [.null]), ("message", ofString "a"), ("event", ofString "status")]

theorem written_spacedStatus : Written (ofMembers spacedStatusMembers) spacedStatus.toList := by
  have hblank : IsBlank [] := Json.isBlank_nil
  have hspace : IsBlank [' '] := by simp [IsBlank, Json.isSpace]
  have hlevel : Json.WrittenKey (some "level") _ :=
    .mk hblank (Json.spelled_escaped _) hblank hblank
  have hmessage : Json.WrittenKey (some "message") _ :=
    .mk hspace (Json.spelled_escaped _) hspace hspace
  have hevent : Json.WrittenKey (some "event") _ :=
    .mk hblank (Json.spelled_escaped _) hblank hblank
  have hletter : Json.SpelledChar 'a' ['\\', 'u', '0', '0', '6', '1'] := .code rfl
  have ha : Json.Spelled "a".toList _ := .cons hletter .nil
  have hstatus : Written (ofString "status") _ := .string (Json.spelled_escaped _)
  exact .object hlevel (.array hblank .null (.close hblank))
    (.next hblank hmessage (.string ha) (.next hblank hevent hstatus (.close hblank)))

theorem read_object_spacedStatus :
    read "@@harness:t1 " ("@@harness:t1 " ++ spacedStatus ++ "\r\r") = .record (.status "a") := by
  have hline : "@@harness:t1 " ++ spacedStatus ++ "\r\r" =
      "@@harness:t1 " ++ String.ofList ([] ++ spacedStatus.toList ++ [] ++ ['\r', '\r']) := by
    decide +kernel
  have hread := read_object written_spacedStatus Json.isBlank_nil Json.isBlank_nil (by simp) hline
  refine (hread.1 _).2 ⟨?_, ?_, ?_, ?_⟩
  · simp [Record.Holdable, spacedStatusMembers, Json.canHold, Json.canHoldItems, Json.depthLimit]
  · rfl
  · simp [Record.required, spacedStatusMembers, valuesNamed]
  · simp [Record.optional]

end OutputLine

end EngineTrials
