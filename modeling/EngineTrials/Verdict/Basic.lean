import EngineTrials.Engine.Outcome
import EngineTrials.Load.Basic

/-! The verdict on a fixture, with its reason, and both in words. -/

namespace EngineTrials

/-- Why a fixture failed. -/
inductive Failure
  /-- The first mismatch, and how many there were. -/
  | mismatch (first : Mismatch) (total : Nat)
  /-- The value completed with, where success was wanted. -/
  | noSentinel (actual : String)
  deriving DecidableEq, Repr

def Failure.message : Failure → String
  | .mismatch first total =>
    if 1 < total then first.message ++ " (+" ++ toString (total - 1) ++ " more)" else first.message
  | .noSentinel actual => "expected completion value \"success\" but got " ++ actual

/-- Why a fixture could neither pass nor fail. -/
inductive Trouble
  | uncaught (exception : Exception)
  | load (fault : LoadFault)
  deriving DecidableEq, Repr

def Trouble.message : Trouble → String
  | .uncaught exception => "uncaught exception: " ++ exception.display
  | .load fault => fault.message

/-- Why a fixture crashed. -/
inductive Crash
  | timeout (limitMillis : Nat)
  | abnormal (message : String)
  deriving DecidableEq, Repr

def Crash.message : Crash → String
  | .timeout limit => "timeout after " ++ toString limit ++ " ms"
  | .abnormal message => message

/-- The verdict on a fixture. -/
inductive Verdict
  | passed
  | failed (failure : Failure)
  | errored (trouble : Trouble)
  | crashed (crash : Crash)
  | skipped (reason : String)
  deriving DecidableEq, Repr

namespace Verdict

def isPass : Verdict → Bool
  | .passed => true
  | _ => false

def isFail : Verdict → Bool
  | .failed _ => true
  | _ => false

def isError : Verdict → Bool
  | .errored _ => true
  | _ => false

def isCrash : Verdict → Bool
  | .crashed _ => true
  | _ => false

def isTimeout : Verdict → Bool
  | .crashed (.timeout _) => true
  | _ => false

def isSkip : Verdict → Bool
  | .skipped _ => true
  | _ => false

/-- Whether the verdict is a problem: neither a pass nor a skip. -/
def isProblem (v : Verdict) : Bool := !v.isPass && !v.isSkip

/-- The word for a verdict at the start of a line. -/
def label : Verdict → String
  | .passed => "PASS"
  | .failed _ => "FAIL"
  | .errored _ => "ERROR"
  | .crashed (.timeout _) => "TIMEOUT"
  | .crashed (.abnormal _) => "CRASH"
  | .skipped _ => "SKIP"

/-- The reason in words, empty for a pass. -/
def detail : Verdict → String
  | .passed => ""
  | .failed failure => failure.message
  | .errored trouble => trouble.message
  | .crashed crash => crash.message
  | .skipped reason => reason

def message (v : Verdict) : String := if v.isPass then v.label else v.label ++ ": " ++ v.detail

end Verdict

end EngineTrials
