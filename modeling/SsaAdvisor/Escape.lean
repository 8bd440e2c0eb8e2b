import SsaAdvisor.AllocationSite
import SsaAdvisor.ValueUse

/-!
# Escaping allocations

An allocation escapes if a later statement returns the value, stores it globally, or passes it to a
callee that may retain it. One that does not escape may live on the stack, and an array may be split
into scalars, if its size is known and below the threshold.

Follows `EscapeAnalysis::run`.
Spec guidance: `SPEC_FULL.md` §§4.1, 10.4.
-/

namespace SsaAdvisor

/-- The verdict on one allocation site. -/
structure EscapeRecord where
  index : Nat
  callee : String
  kind : MemoryKind
  sizeKnown : Bool
  estimatedBytes : Option Nat
  /-- Whether the value may outlive the function. -/
  escapes : Bool
  /-- Why it may, in order of statements. -/
  reasons : List String
  /-- Whether the allocation may live on the stack. -/
  canStackPromote : Bool
  /-- Whether the array may be split into scalars. -/
  canScalarReplace : Bool
deriving DecidableEq

namespace Func

/-- The uses through which a value may outlive the function. -/
def captures (f : Func) (ctx : Context) (value : Nat) : List ValueUse :=
  (f.forwardUses ctx value).filter (·.kind.isCapture)

/-- The verdict on one allocation site. -/
def escapeRecord (f : Func) (ctx : Context) (stackThreshold scalarThreshold : Nat)
    (site : AllocationSite) : EscapeRecord :=
  let reasons := (f.captures ctx site.index).map ValueUse.text
  let escapes := !reasons.isEmpty
  let isBelow (threshold : Nat) : Bool := !escapes && site.estimatedBytes.any (· < threshold)
  { index := site.index
    callee := site.callee
    kind := site.kind
    sizeKnown := site.sizeKnown
    estimatedBytes := site.estimatedBytes
    escapes
    reasons
    canStackPromote := isBelow stackThreshold
    canScalarReplace := site.kind == .array && isBelow scalarThreshold }

/-- The verdicts on all allocation sites of a function, in order. Follows `EscapeAnalysis::run`. -/
def escapeRecords (f : Func) (ctx : Context) (stackThreshold scalarThreshold : Nat) :
    List EscapeRecord :=
  (f.allocationSites ctx).map (f.escapeRecord ctx stackThreshold scalarThreshold)

end Func
end SsaAdvisor
