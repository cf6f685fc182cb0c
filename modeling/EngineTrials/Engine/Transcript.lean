import EngineTrials.Engine.Record
import EngineTrials.Text.Utf8

/-! From what an engine process printed, and how it ended, to an outcome. The lines of the standard
output are sorted into the logs one by one; the last record of an ending counts. -/

namespace EngineTrials

open Text

/-- The stream that a line came on. -/
inductive Stream
  | stdout
  | stderr
  deriving DecidableEq, Repr

/-- How the process ended. -/
inductive Exit
  | code (n : Nat)
  /-- Ended by a signal, with a core dump or without one. -/
  | signal (n : Nat) (dumped : Bool)
  /-- Killed after this many microseconds. -/
  | timedOut (limitMicros : Nat)
  deriving DecidableEq, Repr

/-- The name of a signal. -/
def signalName : Nat → String
  | 1 => " (SIGHUP)"
  | 2 => " (SIGINT)"
  | 3 => " (SIGQUIT)"
  | 4 => " (SIGILL)"
  | 5 => " (SIGTRAP)"
  | 6 => " (SIGABRT)"
  | 7 => " (SIGBUS)"
  | 8 => " (SIGFPE)"
  | 9 => " (SIGKILL)"
  | 10 => " (SIGUSR1)"
  | 11 => " (SIGSEGV)"
  | 12 => " (SIGUSR2)"
  | 13 => " (SIGPIPE)"
  | 14 => " (SIGALRM)"
  | 15 => " (SIGTERM)"
  | 16 => " (SIGSTKFLT)"
  | 17 => " (SIGCHLD)"
  | 18 => " (SIGCONT)"
  | 19 => " (SIGSTOP)"
  | 20 => " (SIGTSTP)"
  | 21 => " (SIGTTIN)"
  | 22 => " (SIGTTOU)"
  | 23 => " (SIGURG)"
  | 24 => " (SIGXCPU)"
  | 25 => " (SIGXFSZ)"
  | 26 => " (SIGVTALRM)"
  | 27 => " (SIGPROF)"
  | 28 => " (SIGWINCH)"
  | 29 => " (SIGIO)"
  | 30 => " (SIGPWR)"
  | 31 => " (SIGSYS)"
  | _ => ""

/-- What has been collected from the output so far. -/
structure Transcript where
  log : Log
  /-- The last ending that a record reported. -/
  ending : Option Ending
  deriving DecidableEq, Repr

namespace Transcript

def start : Transcript := ⟨{}, none⟩

def record (t : Transcript) : Record → Transcript
  | .assertion mismatch =>
    { t with log := { t.log with mismatches := t.log.mismatches ++ [mismatch] } }
  | .status message => { t with log := { t.log with status := t.log.status ++ [message] } }
  | .trace message => { t with log := { t.log with trace := t.log.trace ++ [message] } }
  | .completed value => { t with ending := some (.completed value) }
  | .threw exception => { t with ending := some (.threw exception) }

/-- Takes in a line. A line that only looks like a record is output like any other. -/
def accept (marker : String) (t : Transcript) : Stream × String → Transcript
  | (.stderr, line) => { t with log := { t.log with stderr := t.log.stderr ++ [line] } }
  | (.stdout, line) =>
    match OutputLine.read marker line with
    | .record r => t.record r
    | _ => { t with log := { t.log with output := t.log.output ++ [line] } }

def collect (marker : String) (lines : List (Stream × String)) : Transcript :=
  lines.foldl (accept marker) start

/-- How many lines of the error output a crash quotes. -/
def quotedLines : Nat := 5

def exitMessage : Exit → String
  | .code n => "exit status: " ++ toString n
  | .signal n dumped =>
    "signal: " ++ toString n ++ signalName n ++ (if dumped then " (core dumped)" else "")
  | .timedOut _ => "timeout"

/-- Why a run without a reported ending counts as a crash: the exit and the last lines of the error
output. -/
def crashReason (exit : Exit) (stderr : List String) : String :=
  let quoted := stderr.drop (stderr.length - quotedLines)
  let tail := if quoted = [] then "" else ": " ++ " | ".intercalate quoted
  "engine exited with " ++ exitMessage exit ++ " without reporting an outcome" ++ tail

def finish (t : Transcript) (exit : Exit) : Outcome :=
  match exit, t.ending with
  | .timedOut limit, _ => ⟨.timedOut limit, t.log⟩
  | _, some ending => ⟨ending, t.log⟩
  | _, none => ⟨.crashed (crashReason exit t.log.stderr), t.log⟩

/-- The bytes between line feeds, with no piece after a line feed at the end. -/
def cutLines : List UInt8 → List (List UInt8)
  | [] => []
  | b :: rest =>
    if b = 10 then [] :: cutLines rest
    else
      match cutLines rest with
      | [] => [[b]]
      | first :: others => (b :: first) :: others

/-- A line without carriage returns and line feeds at its end. -/
def bareLine (line : List Char) : String :=
  String.ofList (dropEndWhile (fun c => c == '\n' || c == '\r') line)

/-- The lines of a byte stream, each read leniently as UTF-8. -/
def linesOfBytes (bytes : List UInt8) : List String :=
  (cutLines bytes).map fun line => bareLine (Utf8.decodeLenient line)

end Transcript

end EngineTrials
