import EngineTrials.Path
import EngineTrials.Fixture.Directive
import EngineTrials.Fixture.Expectation
import EngineTrials.Fixture.Header

/-! A fixture: one script with its source, and what can be read off the source. -/

namespace EngineTrials

/-- A fixture whose source holds `marker` needs an engine with `capability`. -/
structure Gate where
  capability : String
  marker : String
  deriving DecidableEq, Repr

/-- A test or benchmark script. -/
structure Fixture where
  path : Path
  source : String
  deriving DecidableEq, Repr

namespace Fixture

/-- The file name without its extension, empty for a path without a file name. -/
def name (f : Fixture) : String := f.path.fileStem?.getD ""

def directives (f : Fixture) : List LoadDirective := loadDirectives f.source

def expectation (f : Fixture) : Expectation := EngineTrials.expectation f.source

/-- Whether the completion value has to be the success sentinel. -/
def expectsSentinel (f : Fixture) : Bool := f.expectation == .successSentinel

def header (f : Fixture) : Header := EngineTrials.header f.source

/-- The capabilities that the fixture needs: sorted, each once. -/
def requiredCapabilities (f : Fixture) (gates : List Gate) : List String :=
  let needed := (gates.filter fun g => Text.contains f.source g.marker).map Gate.capability
  (needed.mergeSort fun a b => decide (a ≤ b)).eraseReps

end Fixture

end EngineTrials
