import EngineTrials.Verdict.Basic

/-! Grading an outcome. A run that was stopped or died says nothing about the fixture's checks; a
mismatch outweighs how the script ended; the sentinel is looked at last. -/

namespace EngineTrials

/-- A time in whole milliseconds, of which 64 bits are kept. -/
def millisOf (micros : Nat) : Nat := micros / 1000 % UInt64.size

/-- The verdict on an outcome; `sentinel` says whether the script has to complete with success. -/
def grade (outcome : Outcome) (sentinel : Bool) : Verdict :=
  match outcome.ending, outcome.log.mismatches with
  | .timedOut limit, _ => .crashed (.timeout (millisOf limit))
  | .crashed reason, _ => .crashed (.abnormal reason)
  | _, first :: more => .failed (.mismatch first (more.length + 1))
  | .threw exception, [] => .errored (.uncaught exception)
  | .completed value, [] =>
    if sentinel && !value.isSuccess then .failed (.noSentinel value.message) else .passed

end EngineTrials
