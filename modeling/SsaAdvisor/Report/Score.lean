import SsaAdvisor.Report.Basic
import SsaAdvisor.Settings

/-!
# Scores

A function starts with a hundred points for performance and for size and loses points for what the
passes found. Counts and charges are kept in 32 bits and stop at the largest word, and a score stops
at zero; absent and empty sections charge nothing.

Follows `compute_scores` and `count`.
Spec guidance: `SPEC_FULL.md` §§4.6, 10.5.
-/

namespace SsaAdvisor

/-- The two scores of a function, from zero to a hundred. -/
structure Scores where
  performance : Nat
  size : Nat
deriving DecidableEq, Repr

namespace Scores

/-- The score of a function without findings. -/
def perfect : Nat := 100

/-- The largest count and the largest charge. -/
def limit : Nat := UInt32.size - 1

/-- The charge for a number of findings of one kind. Follows `count`. -/
def charge (count : Nat) (penalty : UInt32) : Nat := min (min count limit * penalty.toNat) limit

/-- Number of escaping allocations. -/
def escaping (r : Results) : Nat := (r.escapes.data?.getD []).countP (·.escapes)

/-- Number of calls that stay dynamic. -/
def unresolved (r : Results) : Nat := (r.virtualCalls.data?.getD []).countP (·.isUnresolved)

/-- Number of dead statements. -/
def dead (r : Results) : Nat := (r.constants.data?.map (·.deadStatements.toNat)).getD 0

/-- Number of variants of a full specialization. -/
def variants (r : Results) : Nat := (r.specialization.data?.map (·.requiredVariants)).getD 0

/-- The scores for the results of all passes. Follows `compute_scores`. -/
def ofResults (weights : ScoringWeights) (r : Results) : Scores where
  performance :=
    perfect - min (charge (escaping r) weights.escapePenalty) weights.escapePenaltyCap.toNat
      - charge (unresolved r) weights.unresolvedCallPenalty
  size :=
    perfect - charge (dead r) weights.deadStatementPenalty
      - charge (variants r) weights.variantPenalty

end Scores
end SsaAdvisor
