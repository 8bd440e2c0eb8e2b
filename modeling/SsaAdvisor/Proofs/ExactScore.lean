import Mathlib.Algebra.GroupWithZero.Nat
import SsaAdvisor.Proofs.CheckedFold
import SsaAdvisor.Proofs.DeadTotal
import SsaAdvisor.Report.Score

/-!
# Exact scores

Counts and charges stop at the largest word of 32 bits, and a score stops at zero after each charge.
None of this shows in the scores. A charge is the exact product up to the largest word, whatever the
count was; where it stops it exceeds a hundred points, and the cap is a word itself. So the scores
are those of the formula over unbounded integers, cut off at zero once at the end. Only the total of
dead statements is another matter: it is kept in a word of 64 bits and starts again from zero there,
which no function comes near but which assembled results may reach.
-/

namespace SsaAdvisor

namespace Section

variable {α : Type}

end Section

namespace Scores

/-- Assembled results with two decided branches of the given counts, and with nothing else. -/
def ofCounts (first second : Nat) : Results where
  signature := ⟨"assembled", []⟩
  escapes := .empty
  constants := .populated ⟨[], [⟨2, true, first, false, 5⟩, ⟨6, true, second, false, 9⟩], 0, #[]⟩
  virtualCalls := .absent "disabled"
  specialization := .empty
  lifetimes := .empty

/-- A total that exceeds the largest word of 64 bits by one is charged as nothing, although it would
use up all points. -/
theorem ofCounts_wraps :
    let r := ofCounts (2 ^ 64 - 1) 1
    let total : Nat := r.constants.contribution
      fun p ↦ (p.decidedBranches.map (·.statementsEliminated)).sum
    (ofResults {} r).size = 100 ∧
      ((ofResults {} r).size : Int) ≠
        max 0 (100 - (total * ({} : ScoringWeights).deadStatementPenalty.toNat : Int)) := by
  decide +kernel

end Scores
end SsaAdvisor
