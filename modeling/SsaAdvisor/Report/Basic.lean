import SsaAdvisor.Lifetime
import SsaAdvisor.Report.Section
import SsaAdvisor.Specialization
import SsaAdvisor.VirtualCall

/-!
# Results of all passes

The sections of a report for one function, one for each pass.

Follows the sections of `AnalysisReport`.
Spec guidance: `SPEC_FULL.md` §§3, 10.5.
-/

namespace SsaAdvisor

/-- The results of all passes on one function. -/
structure Results where
  signature : Signature
  escapes : Section (List EscapeRecord)
  constants : Section Propagation
  virtualCalls : Section (List VirtualCall)
  specialization : Section Specialization
  lifetimes : Section (List Lifetime)

namespace Results

/-- Whether every pass gave a result. -/
def isComplete (r : Results) : Bool :=
  !r.escapes.isAbsent && !r.constants.isAbsent && !r.virtualCalls.isAbsent
    && !r.specialization.isAbsent && !r.lifetimes.isAbsent

end Results
end SsaAdvisor
