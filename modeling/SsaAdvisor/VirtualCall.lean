import SsaAdvisor.Func.Defect
import SsaAdvisor.Propagation

/-!
# Virtual calls

A call dispatches on the type of its first argument. Where that type is not concrete, the methods
that the call may reach are those whose receiver may share a value with it; if there are few enough
of them the dispatch can be resolved ahead of time.

Follows `Devirtualization::run`, `candidates` and `DispatchStrategy::for_candidates`.
Spec guidance: `SPEC_FULL.md` §§4.3, 10.4.
-/

namespace SsaAdvisor

/-- How a virtual call can be dispatched. -/
inductive DispatchStrategy where
  /-- Directly, there is one candidate. -/
  | direct
  /-- By a switch over a few candidates. -/
  | switch
  /-- Only at run time. -/
  | none
deriving DecidableEq, Repr

namespace DispatchStrategy

/-- The strategy for a number of candidates. Follows `for_candidates`. -/
def ofCount (count maxSwitchTargets : Nat) : DispatchStrategy :=
  if count = 1 then .direct
  else if 2 ≤ count ∧ count ≤ maxSwitchTargets then .switch
  else .none

/-- The written form of a strategy. -/
def text : DispatchStrategy → String
  | .direct => "direct"
  | .switch => "switch"
  | .none => "none"

end DispatchStrategy

/-- A call whose receiver type is not concrete. -/
structure VirtualCall where
  index : Nat
  callee : String
  receiverType : Ty
  /-- The methods that the call may reach. -/
  candidates : SortedSet Signature
  strategy : DispatchStrategy
  /-- Whether any method is registered under the name called. -/
  symbolKnown : Bool
  /-- Whether the call lies in a loop region. -/
  inLoop : Bool
deriving DecidableEq

namespace VirtualCall

/-- Whether the call stays dynamic. -/
def isUnresolved (call : VirtualCall) : Bool := call.strategy == .none

end VirtualCall

namespace Context

/-- The registered methods of a name that may accept a receiver of the given type.
Follows `Devirtualization::candidates`. -/
def candidates (ctx : Context) (callee : String) (receiver : Ty) : SortedSet Signature :=
  .ofList <| ((ctx.methods.lookup? callee).getD []).filter fun signature ↦
    signature.receiver?.any (ctx.hierarchy.intersects · receiver)

end Context

namespace Func

/-- Whether the receiver of a call is a constant of the body, so that its type is settled. -/
def isConstantReceiver (p : Propagation) (receiver : Operand) : Bool :=
  receiver.asValue?.any p.isConstant

/-- The virtual call at a numbered statement, if it is one. It fails if the receiver has no type. -/
def virtualCall? (f : Func) (ctx : Context) (p : Propagation) (maxSwitchTargets : Nat) :
    Statement × Nat → Except Defect (Option VirtualCall)
  | (.call callee (receiver :: _) _, position) =>
    if isConstantReceiver p receiver then .ok none
    else do
      let receiverType ← f.operandType position receiver
      if receiverType.isConcrete then return none
      let candidates := ctx.candidates callee receiverType
      return some
        { index := position
          callee
          receiverType
          candidates
          strategy := .ofCount candidates.size maxSwitchTargets
          symbolKnown := (ctx.methods.lookup? callee).isSome
          inLoop := f.inLoop position }
  | _ => .ok none

/-- The virtual calls of a function in order, or the first defect of a receiver.
Follows `Devirtualization::run`. -/
def virtualCalls (f : Func) (ctx : Context) (maxSwitchTargets lookahead : Nat) :
    Except Defect (List VirtualCall) := do
  let p := f.propagate ctx lookahead
  let found ← f.numbered.mapM (f.virtualCall? ctx p maxSwitchTargets)
  return found.reduceOption

end Func
end SsaAdvisor
