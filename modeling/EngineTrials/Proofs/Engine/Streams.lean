import EngineTrials.Engine.Process
import EngineTrials.Proofs.Verdict.Transcript
import Mathlib.Data.List.Forall2
import Mathlib.Logic.ExistsUnique

/-! The two streams of an engine. Its lines arrive in any order that keeps the order of each stream.
What is collected does not depend on it: a line of the one stream and a line of the other one add to
different parts of a transcript. Each line of the standard output ends up in one of the logs, or as
an ending, and the error output is kept as it is. -/

namespace EngineTrials

namespace Transcript

/-- Lines of the standard output and of the error output, in an order in which they can arrive. -/
inductive Interleaves : List String → List String → List (Stream × String) → Prop
  | nil : Interleaves [] [] []
  | stdout (line : String) {out err : List String} {lines : List (Stream × String)} :
      Interleaves out err lines → Interleaves (line :: out) err ((.stdout, line) :: lines)
  | stderr (line : String) {out err : List String} {lines : List (Stream × String)} :
      Interleaves out err lines → Interleaves out (line :: err) ((.stderr, line) :: lines)

theorem interleaves_append (out err : List String) :
    Interleaves out err (out.map (Stream.stdout, ·) ++ err.map (Stream.stderr, ·)) := by
  induction out with
  | nil =>
    induction err with
    | nil => exact .nil
    | cons line rest ih => exact .stderr line ih
  | cons line rest ih => exact .stdout line ih

/-- What a line of the standard output can become. -/
inductive Share
  | mismatch (m : Mismatch)
  | status (message : String)
  | trace (message : String)
  | output (line : String)
  | ending (e : Ending)

namespace Share

def mismatch? : Share → Option Mismatch
  | mismatch m => some m
  | _ => none

def status? : Share → Option String
  | status message => some message
  | _ => none

def trace? : Share → Option String
  | trace message => some message
  | _ => none

def output? : Share → Option String
  | output line => some line
  | _ => none

def ending? : Share → Option Ending
  | ending e => some e
  | _ => none

/-- Every share is counted in one place. -/
theorem length_eq (shares : List Share) :
    (shares.filterMap mismatch?).length + (shares.filterMap status?).length +
      (shares.filterMap trace?).length + (shares.filterMap output?).length +
      (shares.filterMap ending?).length = shares.length := by
  induction shares with
  | nil => rfl
  | cons share rest ih =>
    cases share <;>
      simp only [List.filterMap_cons, mismatch?, status?, trace?, output?, ending?,
        List.length_cons] <;> omega

end Share

/-- What a line of the standard output becomes. A line with the marker that spells no record is kept
as it is, like one without the marker. -/
inductive Becomes (marker line : String) : Share → Prop
  | plain : OutputLine.read marker line = .plain → Becomes marker line (.output line)
  | malformed {payload : String} : OutputLine.read marker line = .malformed payload →
      Becomes marker line (.output line)
  | mismatch {m : Mismatch} : OutputLine.read marker line = .record (.assertion m) →
      Becomes marker line (.mismatch m)
  | status {message : String} : OutputLine.read marker line = .record (.status message) →
      Becomes marker line (.status message)
  | trace {message : String} : OutputLine.read marker line = .record (.trace message) →
      Becomes marker line (.trace message)
  | completed {value : Completion} : OutputLine.read marker line = .record (.completed value) →
      Becomes marker line (.ending (.completed value))
  | threw {exception : Exception} : OutputLine.read marker line = .record (.threw exception) →
      Becomes marker line (.ending (.threw exception))

variable {marker line : String} {out err : List String} {lines others : List (Stream × String)}
  {share : Share} {shares : List Share} {exit : Exit}

theorem exists_becomes (marker line : String) : ∃ share, Becomes marker line share := by
  cases hread : OutputLine.read marker line with
  | plain => exact ⟨_, .plain hread⟩
  | malformed payload => exact ⟨_, .malformed hread⟩
  | record r =>
    cases r with
    | assertion m => exact ⟨_, .mismatch hread⟩
    | status message => exact ⟨_, .status hread⟩
    | trace message => exact ⟨_, .trace hread⟩
    | completed value => exact ⟨_, .completed hread⟩
    | threw exception => exact ⟨_, .threw hread⟩

theorem Becomes.unique {other : Share} (h : Becomes marker line share)
    (h' : Becomes marker line other) : other = share := by
  cases h <;> cases h' <;> simp_all

theorem exists_shares (marker : String) (out : List String) :
    ∃ shares, List.Forall₂ (Becomes marker) out shares := by
  induction out with
  | nil => exact ⟨[], .nil⟩
  | cons line rest ih =>
    obtain ⟨share, hline⟩ := exists_becomes marker line
    obtain ⟨shares, hrest⟩ := ih
    exact ⟨share :: shares, .cons hline hrest⟩

/-- The transcript with the shares of the one stream and the lines of the other one. -/
def sortedOut (shares : List Share) (err : List String) : Transcript where
  log :=
    { mismatches := shares.filterMap Share.mismatch?
      status := shares.filterMap Share.status?
      trace := shares.filterMap Share.trace?
      output := shares.filterMap Share.output?
      stderr := err }
  ending := (shares.filterMap Share.ending?).getLast?

theorem sortedOut_append (first second : List Share) (err more : List String) :
    (sortedOut first err).append (sortedOut second more) =
      sortedOut (first ++ second) (err ++ more) := by
  simp only [sortedOut, append, Log.append, List.filterMap_append, List.getLast?_append]

theorem accept_stdout (h : Becomes marker line share) :
    accept marker start (.stdout, line) = sortedOut [share] [] := by
  cases h with
  | _ hread => simp only [accept, hread]; rfl

/-- Whatever the order in which lines arrive, they are sorted out alike. -/
theorem collect_eq_sortedOut (h : Interleaves out err lines)
    (hshares : List.Forall₂ (Becomes marker) out shares) :
    collect marker lines = sortedOut shares err := by
  induction h generalizing shares with
  | nil =>
    cases hshares
    rfl
  | stdout line _ ih =>
    cases hshares with | cons hline hrest =>
    rw [collect_cons, ih hrest, accept_stdout hline, sortedOut_append]
    rfl
  | stderr line _ ih =>
    have haccept : accept marker start (.stderr, line) = sortedOut [] [line] := rfl
    rw [collect_cons, ih hshares, haccept, sortedOut_append]
    rfl

/-- An outcome holds what became of the standard output, in its order, and the lines of the error
output. The last ending counts, if the time was not up; without one, at most five lines of the error
output are quoted, the last ones. -/
structure SortsOut (shares : List Share) (err : List String) (exit : Exit) (o : Outcome) :
    Prop where
  mismatches : o.log.mismatches = shares.filterMap Share.mismatch?
  status : o.log.status = shares.filterMap Share.status?
  trace : o.log.trace = shares.filterMap Share.trace?
  output : o.log.output = shares.filterMap Share.output?
  stderr : o.log.stderr = err
  counted : o.log.mismatches.length + o.log.status.length + o.log.trace.length +
    o.log.output.length + (shares.filterMap Share.ending?).length = shares.length
  timedOut : ∀ limit, exit = .timedOut limit → o.ending = .timedOut limit
  ended : (∀ limit, exit ≠ .timedOut limit) →
    ∀ e, (shares.filterMap Share.ending?).getLast? = some e → o.ending = e
  crashed : (∀ limit, exit ≠ .timedOut limit) → shares.filterMap Share.ending? = [] →
    ∃ earlier quoted, err = earlier ++ quoted ∧ quoted.length = min 5 err.length ∧
      o.ending = .crashed ("engine exited with " ++ exitMessage exit ++
        " without reporting an outcome" ++
          if quoted = [] then "" else ": " ++ " | ".intercalate quoted)

theorem log_finish (t : Transcript) (exit : Exit) : (t.finish exit).log = t.log := by
  unfold finish
  split <;> rfl

theorem sortsOut_finish (shares : List Share) (err : List String) (exit : Exit) :
    SortsOut shares err exit ((sortedOut shares err).finish exit) := by
  have hlog : ((sortedOut shares err).finish exit).log = (sortedOut shares err).log :=
    log_finish _ exit
  constructor
  case mismatches => rw [hlog, sortedOut]
  case status => rw [hlog, sortedOut]
  case trace => rw [hlog, sortedOut]
  case output => rw [hlog, sortedOut]
  case stderr => rw [hlog, sortedOut]
  case counted =>
    rw [hlog]
    exact Share.length_eq shares
  case timedOut =>
    rintro limit rfl
    rfl
  case ended =>
    intro hexit e hlast
    rw [finish_of_not_timedOut hexit]
    simp only [sortedOut, hlast, Option.getD_some]
  case crashed =>
    intro hexit hnone
    refine ⟨err.take (err.length - 5), err.drop (err.length - 5),
      (List.take_append_drop _ err).symm, ?_, ?_⟩
    · rw [List.length_drop]
      omega
    · rw [finish_of_not_timedOut hexit]
      simp only [sortedOut, hnone, List.getLast?_nil, Option.getD_none]
      rfl

/-- Two orders in which the lines of two streams can arrive come to the same outcome. In it each
line of the standard output has become one thing and no other, and nothing is lost. -/
theorem finish_collect_of_interleaves (marker : String) (exit : Exit)
    (h : Interleaves out err lines) (h' : Interleaves out err others) :
    (collect marker lines).finish exit = (collect marker others).finish exit ∧
      (∀ line, ∃! share, Becomes marker line share) ∧
      ∃ shares, List.Forall₂ (Becomes marker) out shares ∧
        SortsOut shares err exit ((collect marker lines).finish exit) := by
  obtain ⟨shares, hshares⟩ := exists_shares marker out
  rw [collect_eq_sortedOut h hshares, collect_eq_sortedOut h' hshares]
  refine ⟨rfl, fun line => ?_, shares, hshares, sortsOut_finish shares err exit⟩
  obtain ⟨share, hshare⟩ := exists_becomes marker line
  exact ⟨share, hshare, fun _ hother => hshare.unique hother⟩

/-- A line with the marker that spells no record, and a line of the error output after it. -/
def brokenLines : List (Stream × String) := [(.stdout, "@\x7bevent"), (.stderr, "late")]

theorem interleaves_brokenLines : Interleaves ["@\x7bevent"] ["late"] brokenLines :=
  .stdout _ (.stderr _ .nil)

theorem finish_collect_of_interleaves_brokenLines :
    Interleaves ["@\x7bevent"] ["late"] brokenLines ∧
      Interleaves ["@\x7bevent"] ["late"] brokenLines.reverse ∧
        (collect "@" brokenLines).finish (.code 3) =
          (collect "@" brokenLines.reverse).finish (.code 3) :=
  have hreverse : Interleaves ["@\x7bevent"] ["late"] brokenLines.reverse :=
    .stderr _ (.stdout _ .nil)
  ⟨interleaves_brokenLines, hreverse,
    (finish_collect_of_interleaves "@" (.code 3) interleaves_brokenLines hreverse).1⟩

end Transcript

/-- The outcome of a program does not depend on the order in which its two streams are read. -/
theorem Finished.outcome_eq_of_interleaves (f : Finished) (marker : String)
    {lines : List (Stream × String)}
    (h : Transcript.Interleaves (Transcript.linesOfBytes f.stdout)
      (Transcript.linesOfBytes f.stderr) lines) :
    f.outcome marker = (Transcript.collect marker lines).finish f.exit := by
  obtain ⟨shares, hshares⟩ := Transcript.exists_shares marker (Transcript.linesOfBytes f.stdout)
  have hlines : Transcript.Interleaves _ _ f.lines :=
    Transcript.interleaves_append (Transcript.linesOfBytes f.stdout)
      (Transcript.linesOfBytes f.stderr)
  rw [Finished.outcome, Transcript.collect_eq_sortedOut hlines hshares,
    Transcript.collect_eq_sortedOut h hshares]

end EngineTrials
