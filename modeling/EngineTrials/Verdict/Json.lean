import EngineTrials.Verdict.Basic
import EngineTrials.Json.Decode

/-! Verdicts as JSON: an object with the outcome and, except for a pass, the detail. The reasons are
variants with a tag of their own among their fields. -/

namespace EngineTrials

open Json (ofString ofNat ofMembers ofOption)

/-- A member that is left out if there is no value. -/
def someMember (name : String) (value : Option String) : List (String × Json) :=
  match value with
  | some text => [(name, ofString text)]
  | none => []

namespace Mismatch

def members (m : Mismatch) : List (String × Json) :=
  [("assertion", ofString m.assertion), ("expected", ofString m.expected),
    ("actual", ofString m.actual), ("description", ofOption m.description)]

def toJson (m : Mismatch) : Json := ofMembers m.members

def ofJson? (j : Json) : Option Mismatch := do
  let fields ← j.fields? ["assertion", "expected", "actual", "description"]
  return { assertion := ← fields.required "assertion" Json.text?
           expected := ← fields.required "expected" Json.text?
           actual := ← fields.required "actual" Json.text?
           description := ← fields.optional "description" Json.text? }

end Mismatch

namespace Completion

def toJson (c : Completion) : Json :=
  ofMembers [("type_of", ofString c.kind), ("display", ofString c.display)]

def ofJson? (j : Json) : Option Completion := do
  let fields ← j.fields? ["type_of", "display"]
  return { kind := ← fields.required "type_of" Json.text?
           display := ← fields.required "display" Json.text? }

end Completion

namespace Exception

def toJson (e : Exception) : Json :=
  ofMembers ([("name", ofString e.name), ("message", ofString e.message)] ++
    someMember "stack" e.stack ++ someMember "file" (e.file.map Path.text))

def ofJson? (j : Json) : Option Exception := do
  let fields ← j.fields? ["name", "message", "stack", "file"]
  return { name := ← fields.required "name" Json.text?
           message := ← fields.required "message" Json.text?
           stack := ← fields.defaulted "stack" none (Json.Fields.nullable Json.text?)
           file := (← fields.defaulted "file" none (Json.Fields.nullable Json.text?)).map Path.mk }

end Exception

namespace LoadFault

def toJson : LoadFault → Json
  | .missingDependency requested resolved origin =>
    ofMembers [("kind", ofString "missing_dependency"), ("requested", ofString requested),
      ("resolved", ofString resolved.text), ("from", ofString origin.text)]
  | .cyclicLoad chain =>
    ofMembers [("kind", ofString "cyclic_load"), ("chain", Json.ofStrings (chain.map Path.text))]
  | .unreadable path message =>
    ofMembers [("kind", ofString "io"), ("path", ofString path.text),
      ("message", ofString message)]

def ofJson? (j : Json) : Option LoadFault := do
  let (tag, rest) ← j.tagged? "kind"
  match ← Json.variant? ["missing_dependency", "cyclic_load", "io"] true tag with
  | "missing_dependency" =>
    let fields ← rest.fields? ["requested", "resolved", "from"]
    return .missingDependency (← fields.required "requested" Json.text?)
      ⟨← fields.required "resolved" Json.text?⟩ ⟨← fields.required "from" Json.text?⟩
  | "cyclic_load" =>
    let fields ← rest.fields? ["chain"]
    return .cyclicLoad ((← fields.required "chain" (Json.list? Json.text?)).map Path.mk)
  | _ =>
    let fields ← rest.fields? ["path", "message"]
    return .unreadable ⟨← fields.required "path" Json.text?⟩
      (← fields.required "message" Json.text?)

end LoadFault

namespace Failure

def toJson : Failure → Json
  | .mismatch first total =>
    ofMembers [("kind", ofString "assertion_mismatch"), ("mismatch", first.toJson),
      ("total", ofNat total)]
  | .noSentinel actual =>
    ofMembers [("kind", ofString "sentinel_mismatch"), ("actual", ofString actual)]

def ofJson? (held : Bool) (j : Json) : Option Failure := do
  let (tag, rest) ← j.tagged? "kind"
  match ← Json.variant? ["assertion_mismatch", "sentinel_mismatch"] held tag with
  | "assertion_mismatch" =>
    let fields ← rest.fields? ["mismatch", "total"]
    return .mismatch (← fields.required "mismatch" Mismatch.ofJson?)
      (← fields.required "total" Json.count?)
  | _ =>
    let fields ← rest.fields? ["actual"]
    return .noSentinel (← fields.required "actual" Json.text?)

end Failure

namespace Trouble

def toJson : Trouble → Json
  | .uncaught exception =>
    ofMembers [("cause", ofString "uncaught_exception"), ("exception", exception.toJson)]
  | .load fault => ofMembers [("cause", ofString "load"), ("error", fault.toJson)]

def ofJson? (held : Bool) (j : Json) : Option Trouble := do
  let (tag, rest) ← j.tagged? "cause"
  match ← Json.variant? ["uncaught_exception", "load"] held tag with
  | "uncaught_exception" =>
    let fields ← rest.fields? ["exception"]
    return .uncaught (← fields.required "exception" Exception.ofJson?)
  | _ =>
    let fields ← rest.fields? ["error"]
    return .load (← fields.required "error" LoadFault.ofJson?)

end Trouble

namespace Crash

def toJson : Crash → Json
  | .timeout limit => ofMembers [("kind", ofString "timeout"), ("limit_ms", ofNat limit)]
  | .abnormal message => ofMembers [("kind", ofString "abnormal"), ("message", ofString message)]

def ofJson? (held : Bool) (j : Json) : Option Crash := do
  let (tag, rest) ← j.tagged? "kind"
  match ← Json.variant? ["timeout", "abnormal"] held tag with
  | "timeout" =>
    let fields ← rest.fields? ["limit_ms"]
    return .timeout (← fields.required "limit_ms" Json.count?)
  | _ =>
    let fields ← rest.fields? ["message"]
    return .abnormal (← fields.required "message" Json.text?)

end Crash

namespace Verdict

def toJson : Verdict → Json
  | .passed => ofMembers [("outcome", ofString "passed")]
  | .failed failure => ofMembers [("outcome", ofString "failed"), ("detail", failure.toJson)]
  | .errored trouble => ofMembers [("outcome", ofString "errored"), ("detail", trouble.toJson)]
  | .crashed crash => ofMembers [("outcome", ofString "crashed"), ("detail", crash.toJson)]
  | .skipped reason => ofMembers [("outcome", ofString "skipped"), ("detail", ofString reason)]

def outcomes : List String := ["passed", "failed", "errored", "crashed", "skipped"]

/-- The outcome that a value names: a string, or an object with the name and null. -/
def outcome? : Json → Option String
  | .string (some name) => Json.variant? outcomes false (.string (some name))
  | .object [(some name, .null)] => Json.variant? outcomes false (.string (some name))
  | _ => none

/-- The verdict with a given outcome and detail; `held` says whether the detail was read before the
outcome. -/
def ofParts? (room : Nat) (held : Bool) (outcome : String) (detail : Option Json) :
    Option Verdict :=
  match outcome, detail with
  | "passed", none => some .passed
  | "passed", some .null => some .passed
  | "failed", some j =>
    if j.canHold room then (Failure.ofJson? held j).map .failed else none
  | "errored", some j =>
    if j.canHold room then (Trouble.ofJson? held j).map .errored else none
  | "crashed", some j =>
    if j.canHold room then (Crash.ofJson? held j).map .crashed else none
  | "skipped", some j => j.text?.map .skipped
  | _, _ => none

/-- The verdict that a value spells; `room` is how many containers may still nest in it. -/
def ofJson? (room : Nat) : Json → Option Verdict
  | .array [outcome, detail] => do ofParts? (room - 1) false (← outcome? outcome) (some detail)
  | .object members => do
    if members.all (fun m => m.1.isSome) ∧ Json.timesNamed "outcome" members = 1 ∧
        Json.timesNamed "detail" members ≤ 1 then
      let held := (members.findIdx fun m => m.1 == some "detail") <
        members.findIdx fun m => m.1 == some "outcome"
      ofParts? (room - 1) held (← (members.lookup (some "outcome")).bind outcome?)
        (members.lookup (some "detail"))
    else none
  | _ => none

end Verdict

end EngineTrials
