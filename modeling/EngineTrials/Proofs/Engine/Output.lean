import EngineTrials.Proofs.Text.Lines
import EngineTrials.Proofs.Text.Trimming
import EngineTrials.Proofs.Text.Utf8
import EngineTrials.Proofs.Verdict.Transcript

/-! Lines of bytes. A line feed cuts bytes and the text that is shown for them at the same places,
so it does not matter whether lines are cut before they are read as text or after. What is collected
from bytes that end with a line is followed by what is collected from the bytes after it, and the
line of a record is taken as that record whatever stands before and after it. -/

namespace EngineTrials

open Text

namespace Transcript

variable {marker : String} {line rest before after : List UInt8}

/-- The pieces of a text between line feeds, without an empty one at the end. -/
def endedLines (text : List Char) : List (List Char) :=
  if (lines text).getLast? = some [] then (lines text).dropLast else lines text

/-- No bytes, or bytes of which the last one is a line feed. -/
def EndsLine (bytes : List UInt8) : Prop := bytes = [] ∨ bytes.getLast? = some 10

/-- What is collected from the bytes on the standard output. -/
def ofStdout (marker : String) (bytes : List UInt8) : Transcript :=
  collect marker ((linesOfBytes bytes).map (Stream.stdout, ·))

theorem lines_induction {motive : List UInt8 → Prop} (nil : motive [])
    (last : ∀ {line}, 10 ∉ line → line ≠ [] → motive line)
    (next : ∀ {line rest}, 10 ∉ line → motive rest → motive (line ++ 10 :: rest))
    (bytes : List UInt8) : motive bytes := by
  refine separated_induction (fun {line} hline => ?_) next bytes
  by_cases hnil : line = []
  · exact hnil ▸ nil
  · exact last hline hnil

theorem cutLines_of_not_mem (h : 10 ∉ line) (hne : line ≠ []) : cutLines line = [line] := by
  induction line with
  | nil => exact absurd rfl hne
  | cons b line ih =>
    obtain ⟨hb, hline⟩ := not_or.1 (mt List.mem_cons.2 h)
    rw [cutLines, if_neg (Ne.symm hb)]
    cases line with
    | nil => rfl
    | cons c line => rw [ih hline (by simp)]

theorem cutLines_append_lineFeed (h : 10 ∉ line) :
    cutLines (line ++ 10 :: rest) = line :: cutLines rest := by
  induction line with
  | nil => rw [List.nil_append, cutLines, if_pos rfl]
  | cons b line ih =>
    obtain ⟨hb, hline⟩ := not_or.1 (mt List.mem_cons.2 h)
    rw [List.cons_append, cutLines, if_neg (Ne.symm hb), ih hline]

theorem cutLines_append (h : EndsLine before) :
    cutLines (before ++ after) = cutLines before ++ cutLines after := by
  induction before using lines_induction with
  | nil => rfl
  | last hline hne =>
    obtain hnil | hlast := h
    · exact absurd hnil hne
    · exact absurd (List.mem_of_getLast? hlast) hline
  | @next line rest hline ih =>
    have hrest : EndsLine rest := by
      cases rest with
      | nil => exact .inl rfl
      | cons b rest =>
        obtain hnil | hlast := h
        · simp at hnil
        · refine .inr ?_
          simpa [List.getLast?_append, List.getLast?_cons_cons] using hlast
    rw [List.append_assoc, List.cons_append, cutLines_append_lineFeed hline,
      cutLines_append_lineFeed hline, ih hrest, List.cons_append]

theorem endedLines_of_not_mem {line : List Char} (h : '\n' ∉ line) (hne : line ≠ []) :
    endedLines line = [line] := by
  rw [endedLines, lines_of_not_mem h, if_neg (by simpa using hne)]

theorem endedLines_append_lineFeed {line rest : List Char} (h : '\n' ∉ line) :
    endedLines (line ++ '\n' :: rest) = line :: endedLines rest := by
  have hlines : lines (line ++ '\n' :: rest) = line :: lines rest := by
    rw [lines_append_lineFeed, lines_of_not_mem h, List.singleton_append]
  have hne : lines rest ≠ [] := pieces_ne_nil '\n' rest
  rw [endedLines, hlines, List.getLast?_cons_of_ne_nil hne, List.dropLast_cons_of_ne_nil hne]
  unfold endedLines
  split_ifs
  · rfl
  · rfl

theorem map_decodeLenient_cutLines (bytes : List UInt8) :
    (cutLines bytes).map Utf8.decodeLenient = endedLines (Utf8.decodeLenient bytes) := by
  induction bytes using lines_induction with
  | nil => rfl
  | last hline hne =>
    rw [cutLines_of_not_mem hline hne, endedLines_of_not_mem
      (Utf8.lineFeed_not_mem_decodeLenient hline) (Utf8.decodeLenient_ne_nil hne)]
    rfl
  | next hline ih =>
    rw [cutLines_append_lineFeed hline, List.map_cons, ih, Utf8.decodeLenient_append_lineFeed,
      endedLines_append_lineFeed (Utf8.lineFeed_not_mem_decodeLenient hline)]

/-- Lines cut from bytes are those cut from the text that is shown for the bytes. -/
theorem linesOfBytes_eq (bytes : List UInt8) :
    linesOfBytes bytes = (endedLines (Utf8.decodeLenient bytes)).map bareLine := by
  rw [← map_decodeLenient_cutLines, List.map_map]
  rfl

theorem ofStdout_append (h : EndsLine before) :
    ofStdout marker (before ++ after) =
      (ofStdout marker before).append (ofStdout marker after) := by
  rw [ofStdout, linesOfBytes, cutLines_append h, List.map_append, List.map_append, collect_append]
  rfl

/-- The carriage returns that end a line are no part of a record. -/
theorem read_bareLine {line : String} (h : '\n' ∉ line.toList) :
    OutputLine.read marker (bareLine line.toList) = OutputLine.read marker line := by
  have hends : ∀ c ∈ line.toList, (c == '\n' || c == '\r') = (c == '\r') := by
    intro c hc
    have hne : c ≠ '\n' := fun heq => h (heq ▸ hc)
    simp [hne]
  have hpayload : payload? marker (bareLine line.toList) = payload? marker line := by
    rw [payload?, payload?, bareLine, String.toList_ofList, dropEndWhile_congr hends,
      dropEndWhile_eq_rdropWhile, dropEndWhile_eq_rdropWhile, List.rdropWhile_idempotent]
  rw [OutputLine.read, OutputLine.read, hpayload]

theorem ne_nil_of_read {line : String} {r : Record} (h : OutputLine.read marker line = .record r) :
    line.toList ≠ [] := by
  intro hnil
  cases hpayload : payload? marker line with
  | none => simp [OutputLine.read, hpayload] at h
  | some payload =>
    have htext : [] = marker.toList ++ payload := by
      rw [← dropLiteral?_eq_some_iff]
      rwa [payload?, hnil] at hpayload
    obtain rfl : payload = [] := (List.append_eq_nil_iff.1 htext.symm).2
    have hparse : Json.parse? [] = none := rfl
    simp [OutputLine.read, hpayload, hparse] at h

theorem record_eq_append (t : Transcript) (r : Record) : t.record r = t.append (start.record r) := by
  cases r <;> simp [record, append, Log.append, start]

theorem collect_bareLine {line : String} {r : Record} (h : '\n' ∉ line.toList)
    (hread : OutputLine.read marker line = .record r) :
    collect marker [(.stdout, bareLine line.toList)] = start.record r := by
  rw [← read_bareLine h] at hread
  simp [collect, accept, hread]

theorem ofStdout_line {line : String} {r : Record} (h : '\n' ∉ line.toList)
    (hread : OutputLine.read marker line = .record r) :
    ofStdout marker (Utf8.encode line.toList) = start.record r := by
  rw [ofStdout, linesOfBytes_eq, Utf8.decodeLenient_encode,
    endedLines_of_not_mem h (ne_nil_of_read hread)]
  exact collect_bareLine h hread

theorem ofStdout_line_lineFeed {line : String} {r : Record} (h : '\n' ∉ line.toList)
    (hread : OutputLine.read marker line = .record r) :
    ofStdout marker (Utf8.encode line.toList ++ [10]) = start.record r := by
  rw [ofStdout, linesOfBytes_eq, Utf8.decodeLenient_append_lineFeed, Utf8.decodeLenient_encode,
    endedLines_append_lineFeed h]
  exact collect_bareLine h hread

/-- One transcript, then a record, then another transcript: the record is in the log of its kind, or
is the ending if none comes later, and all else is as the two have it. -/
structure RecordedBetween (r : Record) (a b t : Transcript) : Prop where
  mismatches : t.log.mismatches = a.log.mismatches ++ r.mismatch?.toList ++ b.log.mismatches
  status : t.log.status = a.log.status ++ r.status?.toList ++ b.log.status
  trace : t.log.trace = a.log.trace ++ r.trace?.toList ++ b.log.trace
  output : t.log.output = a.log.output ++ b.log.output
  stderr : t.log.stderr = a.log.stderr ++ b.log.stderr
  ending : t.ending = (b.ending.or r.ending?).or a.ending

theorem recordedBetween_append (r : Record) (a b : Transcript) :
    RecordedBetween r a b ((a.record r).append b) := by
  cases r <;> constructor <;> simp [record, append, Log.append, Record.mismatch?, Record.status?,
    Record.trace?, Record.ending?]

/-- Cutting bytes into lines and reading each line as text comes to the same as cutting the text
that is shown for all bytes. What is collected from bytes that end with a line is followed by what
is collected from the bytes after them, and between them a line that spells a record adds that
record and nothing else. -/
theorem linesOfBytes_cut (marker : String) :
    (∀ bytes, linesOfBytes bytes = (endedLines (Utf8.decodeLenient bytes)).map bareLine) ∧
      (∀ before after, EndsLine before →
        ofStdout marker (before ++ after) =
          (ofStdout marker before).append (ofStdout marker after)) ∧
      ∀ before after (line : String) r, EndsLine before → '\n' ∉ line.toList →
        OutputLine.read marker line = .record r →
          RecordedBetween r (ofStdout marker before) start
              (ofStdout marker (before ++ Utf8.encode line.toList)) ∧
            RecordedBetween r (ofStdout marker before) (ofStdout marker after)
              (ofStdout marker (before ++ Utf8.encode line.toList ++ 10 :: after)) := by
  refine ⟨linesOfBytes_eq, fun _ _ => ofStdout_append, ?_⟩
  intro before after line r hbefore hline hread
  have hrecord : ofStdout marker (before ++ Utf8.encode line.toList) =
      ((ofStdout marker before).record r).append start := by
    rw [ofStdout_append hbefore, ofStdout_line hline hread, ← record_eq_append, append_start]
  have hends : EndsLine (Utf8.encode line.toList ++ [10]) := .inr List.getLast?_concat
  have hfollowed : ofStdout marker (before ++ Utf8.encode line.toList ++ 10 :: after) =
      ((ofStdout marker before).record r).append (ofStdout marker after) := by
    calc ofStdout marker (before ++ Utf8.encode line.toList ++ 10 :: after)
        = ofStdout marker (before ++ ((Utf8.encode line.toList ++ [10]) ++ after)) := by simp
      _ = (ofStdout marker before).append
            ((start.record r).append (ofStdout marker after)) := by
          rw [ofStdout_append hbefore, ofStdout_append hends, ofStdout_line_lineFeed hline hread]
      _ = ((ofStdout marker before).record r).append (ofStdout marker after) := by
          rw [← append_assoc, ← record_eq_append]
  rw [hrecord, hfollowed]
  exact ⟨recordedBetween_append r _ _, recordedBetween_append r _ _⟩

/-- Bytes that start a character and break off, a zero byte and a byte of no character, on a line
of their own. -/
def garbledBytes : List UInt8 := [0xE2, 0x82, 0x00, 0xFF, 10]

/-- The line of a record that a carriage return ends. -/
def tracedLine : String := "@\x7b\"event\":\"trace\",\"message\":\"on\"\x7d\r"

/-- The line between garbled bytes. -/
def tracedBytes : List UInt8 :=
  garbledBytes ++ Utf8.encode tracedLine.toList ++ 10 :: garbledBytes

/-- The record is in the trace once, with a line of output before it and one after it. -/
theorem linesOfBytes_cut_tracedBytes : (ofStdout "@" tracedBytes).log.trace = ["on"] ∧
    (ofStdout "@" tracedBytes).log.output.length = 2 ∧
      (ofStdout "@" tracedBytes).ending = none := by
  have hends : EndsLine garbledBytes := .inr (by decide)
  have hline : '\n' ∉ tracedLine.toList := by decide
  have hread : OutputLine.read "@" tracedLine = .record (.trace "on") := by decide +kernel
  have hgarbled : (ofStdout "@" garbledBytes).log.trace = [] ∧
      (ofStdout "@" garbledBytes).log.output.length = 1 ∧
        (ofStdout "@" garbledBytes).ending = none := by decide +kernel
  obtain ⟨htrace, hlength, hending⟩ := hgarbled
  obtain ⟨-, hbetween⟩ : _ ∧ RecordedBetween _ _ _ (ofStdout "@" tracedBytes) :=
    (linesOfBytes_cut "@").2.2 garbledBytes garbledBytes tracedLine _ hends hline hread
  refine ⟨?_, ?_, ?_⟩
  · rw [hbetween.trace, htrace]
    rfl
  · rw [hbetween.output, List.length_append, hlength]
  · rw [hbetween.ending, hending]
    rfl

end Transcript

end EngineTrials
