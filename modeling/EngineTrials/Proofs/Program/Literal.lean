import EngineTrials.Program.Basic
import EngineTrials.Proofs.Json.Printing
import EngineTrials.Proofs.Program.Lines

/-! JSON text as a literal of a script: escapes for Unicode's two separators change nothing of what
the text spells, and then none of its characters ends a line. So the call before the body is one
line whatever the body declares. -/

namespace EngineTrials

open ScriptText

namespace Json

/-- How a script literal writes a character of JSON text. -/
def scriptEscaped (c : Char) : List Char :=
  if c = '\u2028' then ['\\', 'u', '2', '0', '2', '8']
  else if c = '\u2029' then ['\\', 'u', '2', '0', '2', '9']
  else [c]

/-- A character that is no separator is left as it is. -/
theorem scriptEscaped_of_lt {c : Char} (h : c.toNat < 0x2028) : scriptEscaped c = [c] := by
  have hline : c ≠ '\u2028' := by
    rintro rfl
    exact absurd h (by decide)
  have hparagraph : c ≠ '\u2029' := by
    rintro rfl
    exact absurd h (by decide)
  simp [scriptEscaped, hline, hparagraph]

theorem flatMap_scriptEscaped {text : List Char} (h : ∀ c ∈ text, c.toNat < 0x2028) :
    text.flatMap scriptEscaped = text := by
  induction text with
  | nil => rfl
  | cons c rest ih =>
    rw [List.forall_mem_cons] at h
    rw [List.flatMap_cons, scriptEscaped_of_lt h.1, ih h.2, List.singleton_append]

theorem IsPlain.flatMap_scriptEscaped {text : List Char} (h : IsPlain text) :
    text.flatMap scriptEscaped = text :=
  Json.flatMap_scriptEscaped fun c hc => Nat.lt_trans (h c hc).2 (by decide)

theorem IsBlank.flatMap_scriptEscaped {blank : List Char} (h : IsBlank blank) :
    blank.flatMap scriptEscaped = blank := by
  apply Json.flatMap_scriptEscaped
  intro c hc
  obtain rfl | rfl | rfl | rfl := isSpace_iff.1 (h c hc) <;> decide

/-- A separator in a string is written as an escape for it, and every escape stays. -/
theorem SpelledChar.scriptEscaped {c : Char} {spelling : List Char} (h : SpelledChar c spelling) :
    SpelledChar c (spelling.flatMap scriptEscaped) := by
  obtain ⟨rfl, hcontrol⟩ | hplain := h.eq_or_isPlain
  · rw [List.flatMap_singleton, Json.scriptEscaped]
    split_ifs with hline hparagraph
    · exact .code (by rw [hline]; rfl)
    · exact .code (by rw [hparagraph]; rfl)
    · exact h
  · rwa [hplain.flatMap_scriptEscaped]

theorem Spelled.scriptEscaped {text spelling : List Char} (h : Spelled text spelling) :
    Spelled text (spelling.flatMap scriptEscaped) := by
  induction h with
  | nil => exact .nil
  | cons hchar _ ih =>
    rw [List.flatMap_append]
    exact .cons hchar.scriptEscaped ih

theorem WrittenKey.scriptEscaped {key : Option String} {name : List Char}
    (h : WrittenKey key name) : WrittenKey key (name.flatMap scriptEscaped) := by
  cases h with
  | mk hbefore hkey hbetween hafter =>
    have hwritten := WrittenKey.mk hbefore hkey.scriptEscaped hbetween hafter
    simpa [hbefore.flatMap_scriptEscaped, hbetween.flatMap_scriptEscaped,
      hafter.flatMap_scriptEscaped, scriptEscaped_of_lt] using hwritten

mutual

theorem Written.scriptEscaped {j : Json} {text : List Char} (h : Written j text) :
    Written j (text.flatMap scriptEscaped) := by
  match h with
  | .null => exact .null
  | .isTrue => exact .isTrue
  | .isFalse => exact .isFalse
  | .number hnumeral =>
    rw [hnumeral.isPlain.flatMap_scriptEscaped]
    exact .number hnumeral
  | .string hspelled =>
    simpa [scriptEscaped_of_lt] using Written.string hspelled.scriptEscaped
  | .emptyArray hblank =>
    simpa [scriptEscaped_of_lt, hblank.flatMap_scriptEscaped] using Written.emptyArray hblank
  | .array hblank hitem hrest =>
    have hwritten := Written.array hblank (Written.scriptEscaped hitem)
      (WrittenItems.scriptEscaped hrest)
    simpa [scriptEscaped_of_lt, hblank.flatMap_scriptEscaped] using hwritten
  | .emptyObject hblank =>
    simpa [scriptEscaped_of_lt, hblank.flatMap_scriptEscaped] using Written.emptyObject hblank
  | .object hkey hvalue hrest =>
    have hwritten := Written.object hkey.scriptEscaped (Written.scriptEscaped hvalue)
      (WrittenMembers.scriptEscaped hrest)
    simpa [scriptEscaped_of_lt] using hwritten

theorem WrittenItems.scriptEscaped {items : List Json} {more : List Char}
    (h : WrittenItems items more) : WrittenItems items (more.flatMap scriptEscaped) := by
  match h with
  | .close hblank =>
    simpa [scriptEscaped_of_lt, hblank.flatMap_scriptEscaped] using WrittenItems.close hblank
  | .next hbefore hblank hitem hrest =>
    have hwritten := WrittenItems.next hbefore hblank (Written.scriptEscaped hitem)
      (WrittenItems.scriptEscaped hrest)
    simpa [scriptEscaped_of_lt, hbefore.flatMap_scriptEscaped, hblank.flatMap_scriptEscaped]
      using hwritten

theorem WrittenMembers.scriptEscaped {members : List (Option String × Json)} {more : List Char}
    (h : WrittenMembers members more) : WrittenMembers members (more.flatMap scriptEscaped) := by
  match h with
  | .close hblank =>
    simpa [scriptEscaped_of_lt, hblank.flatMap_scriptEscaped] using WrittenMembers.close hblank
  | .next hbefore hkey hvalue hrest =>
    have hwritten := WrittenMembers.next hbefore hkey.scriptEscaped (Written.scriptEscaped hvalue)
      (WrittenMembers.scriptEscaped hrest)
    simpa [scriptEscaped_of_lt, hbefore.flatMap_scriptEscaped] using hwritten

end

end Json

theorem not_isTerminator_of_all {text : List Char} {c : Char}
    (h : (text.all fun d => !isTerminator d) = true) (hc : c ∈ text) :
    ¬ isTerminator c = true := by
  simpa using List.all_eq_true.1 h c hc

theorem scriptLiteral_toList (j : Json) :
    (scriptLiteral j).toList = (j.render .compact 0).flatMap Json.scriptEscaped :=
  String.toList_ofList

/-- The literal of a value spells the value. -/
theorem written_scriptLiteral {j : Json} (h : j.Spellable) :
    Json.Written j (scriptLiteral j).toList := by
  rw [scriptLiteral_toList]
  exact (h.written Json.Layout.isBlank_compact 0).scriptEscaped

/-- The literal of a value has no line terminators. -/
theorem not_isTerminator_of_mem_scriptLiteral {j : Json} (h : j.Spellable) {c : Char}
    (hc : c ∈ (scriptLiteral j).toList) : ¬ isTerminator c = true := by
  rw [scriptLiteral_toList, List.mem_flatMap] at hc
  obtain ⟨d, hd, hc⟩ := hc
  have hcontrol := h.noControls 0 d hd
  rw [Json.scriptEscaped] at hc
  split_ifs at hc with hline hparagraph
  · exact not_isTerminator_of_all (by decide) hc
  · exact not_isTerminator_of_all (by decide) hc
  · obtain rfl : c = d := by simpa using hc
    have hfeed : c ≠ '\n' := by
      rintro rfl
      exact absurd hcontrol (by decide)
    have hreturn : c ≠ '\r' := by
      rintro rfl
      exact absurd hcontrol (by decide)
    simp [isTerminator, hfeed, hreturn, hline, hparagraph]

/-- The call before a body, without the end of its line. -/
def reinstallCall (body : String) : List Char :=
  ("__harness.reinstall(" ++ scriptLiteral (.ofStrings (declaredPrimitives body)) ++ ");").toList

theorem reinstallLine_toList (body : String) :
    (reinstallLine body).toList = reinstallCall body ++ ['\n'] := by
  unfold reinstallLine reinstallCall
  rw [String.toList_append, String.toList_append]
  simp

theorem head?_reinstallLine (body : String) : (reinstallLine body).toList.head? = some '_' := by
  unfold reinstallLine
  rw [String.toList_append, String.toList_append]
  simp

theorem not_isTerminator_of_mem_reinstallCall {body : String} {c : Char}
    (h : c ∈ reinstallCall body) : ¬ isTerminator c = true := by
  rw [reinstallCall, String.toList_append, String.toList_append, List.mem_append,
    List.mem_append] at h
  obtain (hopen | hliteral) | hclose := h
  · exact not_isTerminator_of_all (by decide) hopen
  · exact not_isTerminator_of_mem_scriptLiteral (Json.spellable_ofStrings _) hliteral
  · exact not_isTerminator_of_all (by decide) hclose

theorem lines_reinstallLine (body : String) :
    lines (reinstallLine body).toList = [reinstallCall body] := by
  rw [reinstallLine_toList]
  exact lines_append_lineFeed fun _ => not_isTerminator_of_mem_reinstallCall

end EngineTrials
