import SsaAdvisor.Pass

/-!
# Settings

Thresholds and limits of the passes, the passes to run, and the weights of the scores. Limits trade
precision for cost: with lower ones less is claimed.

Follows `AnalyzerConfig` and `ScoringConfig` with their defaults.
Spec guidance: `SPEC_FULL.md` §10.5.
-/

namespace SsaAdvisor

/-- The weights of the scores. -/
structure ScoringWeights where
  /-- Charged for each escaping allocation. -/
  escapePenalty : UInt32 := 10
  /-- The most that is charged for escaping allocations together. -/
  escapePenaltyCap : UInt32 := 50
  /-- Charged for each call that stays dynamic. -/
  unresolvedCallPenalty : UInt32 := 5
  /-- Charged for each dead statement. -/
  deadStatementPenalty : UInt32 := 1
  /-- Charged for each variant of a full specialization. -/
  variantPenalty : UInt32 := 2
deriving DecidableEq, Repr

/-- What to analyze and within which limits. -/
structure Settings where
  /-- Allocations below this many bytes may live on the stack. -/
  stackThreshold : Nat := 4096
  /-- Arrays below this many bytes may be split into scalars. -/
  scalarThreshold : Nat := 256
  /-- The most statements that are counted behind a decided branch. -/
  deadBranchLookahead : Nat := 20
  /-- The most candidates that a type switch distinguishes. -/
  maxSwitchTargets : Nat := 4
  /-- The number of variants from which on a specialization is reported as large. -/
  oversizedVariantThreshold : Nat := 8
  /-- Whether every escaping allocation is critical. -/
  expectNoEscapes : Bool := false
  /-- The passes to run. -/
  passes : PassSet := .all
  /-- The weights of the scores. -/
  scoring : ScoringWeights := {}
  /-- The time given to the passes of one run, without limit if there is none. -/
  timeout : Option Nat := none

end SsaAdvisor
