import EngineTrials.Fixture.Basic
import EngineTrials.Proofs.List
import EngineTrials.Proofs.Text.Replacement

/-! The capabilities that a fixture needs: those of the gates whose markers occur in its source,
each once and in the order of their names. -/

namespace EngineTrials

namespace Fixture

theorem mem_requiredCapabilities {f : Fixture} {gates : List Gate} {capability : String} :
    capability ∈ f.requiredCapabilities gates ↔
      ∃ gate ∈ gates, gate.marker.toList <:+: f.source.toList ∧ gate.capability = capability := by
  unfold requiredCapabilities
  rw [List.mem_eraseReps, List.mem_mergeSort, List.mem_map]
  simp only [List.mem_filter, Text.contains_iff_infix, and_assoc]

theorem pairwise_requiredCapabilities (f : Fixture) (gates : List Gate) :
    (f.requiredCapabilities gates).Pairwise (· < ·) := by
  apply List.pairwise_eraseReps
  have htrans : ∀ a b c : String, decide (a ≤ b) = true → decide (b ≤ c) = true →
      decide (a ≤ c) = true := fun a b c => by simpa using String.le_trans
  have htotal : ∀ a b : String, (decide (a ≤ b) || decide (b ≤ a)) = true :=
    fun a b => by simpa using String.le_total a b
  simpa using List.pairwise_mergeSort htrans htotal
    ((gates.filter fun g => Text.contains f.source g.marker).map Gate.capability)

end Fixture

end EngineTrials
