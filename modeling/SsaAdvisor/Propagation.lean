import SsaAdvisor.Constant.Operator
import SsaAdvisor.Context.Basic
import SsaAdvisor.Func.Basic
import SsaAdvisor.StatementSet

/-!
# Propagation of constants

One sweep over the body, in order of statements, finds out which values are constant. A literal is;
so is what an immutable global binding holds, even where the context does not supply it; and so is a
call of an operator whose arguments are known when the sweep meets it. Operands that refer forward,
as they do around loops, are not known at that point.

A branch on a known truth value is decided. The statements of its dead arm are counted behind the
branch, up to the next control transfer or join point and no further than a given lookahead.

Follows `ConstantPropagation::analyze`, `count_dead`, `resolve` and `fold_call`.
Spec guidance: `SPEC_FULL.md` §§4.2, 10.4.
-/

namespace SsaAdvisor

/-- What is known about one value. -/
inductive ValueState where
  /-- It is this constant. -/
  | known (value : Constant)
  /-- It is a constant, but not known which. -/
  | fixed
  /-- It is not known to be constant. -/
  | varying
deriving Inhabited

namespace ValueState

/-- The constant, if it is known. -/
def constant? : ValueState → Option Constant
  | .known value => some value
  | .fixed | .varying => none

/-- Whether the value is a constant, known or not. -/
def isConstant : ValueState → Bool
  | .known _ | .fixed => true
  | .varying => false

end ValueState

/-- The states of the values at the first positions of a body, in order. -/
abbrev ValueStates := Array ValueState

namespace ValueStates

/-- The state of the value at a position, counted from one. -/
def at? (states : ValueStates) (position : Nat) : Option ValueState :=
  if position = 0 then none else states[position - 1]?

/-- The states of the values before a position. -/
def before (states : ValueStates) (position : Nat) : ValueStates := states.take (position - 1)

/-- The constant that an operand is, if it is known. Follows `resolve`. -/
def resolve? (states : ValueStates) : Operand → Option Constant
  | .const c => some c
  | .value position => (states.at? position).bind ValueState.constant?
  | .argument _ => none

/-- The result of a call of an operator on known arguments. Follows `fold_call`. -/
def fold? (states : ValueStates) (callee : String) (args : List Operand) : Option Constant := do
  let op ← Operator.ofCallee? callee
  op.evaluate? (← args.mapM states.resolve?)

/-- The state of the value that a statement defines, given those before it. -/
def transfer (ctx : Context) (states : ValueStates) : Statement → ValueState
  | .literal c _ => .known c
  | .globalRead symbol _ true =>
    match ctx.globalConstant? symbol with
    | some c => .known c
    | none => .fixed
  | .call callee args _ =>
    match states.fold? callee args with
    | some c => .known c
    | none => .varying
  | .globalRead _ _ false | .branch .. | .jump _ | .ret _ => .varying

end ValueStates

/-- A value found to be constant. -/
structure ConstantRecord where
  index : Nat
  /-- The constant, if it is known. -/
  value : Option Constant
  /-- Whether it comes from an immutable global binding. -/
  isGlobalImmutable : Bool
  /-- Whether it was computed from a call. -/
  folded : Bool

/-- A branch whose condition is known. -/
structure DecidedBranch where
  index : Nat
  /-- The value of the condition under which the dead arm would run. -/
  eliminatedArm : Bool
  /-- Statements counted as part of the dead arm. -/
  statementsEliminated : Nat
  /-- Whether the dead arm is the jump. -/
  jumpIsDead : Bool
  /-- The target of the branch. -/
  target : Nat
deriving DecidableEq, Repr

/-- The result of propagation. -/
structure Propagation where
  records : List ConstantRecord
  decidedBranches : List DecidedBranch
  /-- Number of calls computed ahead of time. -/
  foldedCalls : Nat
  states : ValueStates

namespace Propagation

/-- Whether the value at a position is a constant, known or not. -/
def isConstant (p : Propagation) (position : Nat) : Bool :=
  (p.states.at? position).any ValueState.isConstant

/-- The constant at a position, if it is known. -/
def constant? (p : Propagation) (position : Nat) : Option Constant :=
  (p.states.at? position).bind ValueState.constant?

/-- What was decided about the branch at a position. -/
def decidedBranch? (p : Propagation) (position : Nat) : Option DecidedBranch :=
  p.decidedBranches.find? (·.index == position)

/-- Whether the branch at a position is decided against its jump. -/
def jumpIsDead (p : Propagation) (position : Nat) : Bool :=
  (p.decidedBranch? position).any (·.jumpIsDead)

/-- Total of the statements counted as dead, kept in a word of 64 bits.
Follows `dead_statements`. -/
def deadStatements (p : Propagation) : UInt64 :=
  p.decidedBranches.foldl (fun total d ↦ total + .ofNat d.statementsEliminated) 0

/-- Whether nothing was found. -/
def isEmpty (p : Propagation) : Bool := p.records.isEmpty && p.decidedBranches.isEmpty

end Propagation

namespace Func

/-- The states of all values, found in one sweep. -/
def valueStates (f : Func) (ctx : Context) : ValueStates :=
  f.body.foldl (fun states s ↦ states.push (states.transfer ctx s)) #[]

/-- The targets of branches and jumps. -/
def joinPoints (f : Func) : StatementSet := .ofList f.size f.jumpTargets

/-- Number of statements behind a decided branch that are counted as its dead arm.
Follows `count_dead`. -/
def countDead (f : Func) (lookahead branch : Nat) : Nat :=
  let joins := f.joinPoints
  -- a join point may be reached some other way, so nothing from there on is counted
  (((f.after branch).take lookahead).takeWhile fun (s, position) ↦
    !s.isControlTransfer && !joins.contains position).length

/-- The record of a numbered statement that defines a constant. -/
def constantRecord? (states : ValueStates) : Statement × Nat → Option ConstantRecord
  | (s, position) =>
    ((states.at? position).filter (·.isConstant)).map fun state ↦
      { index := position
        value := state.constant?
        isGlobalImmutable := s matches .globalRead ..
        folded := s matches .call .. }

/-- What is decided about a numbered branch. Its condition counts as known only if it is known from
the statements before the branch. -/
def decidedBranch? (f : Func) (lookahead : Nat) (states : ValueStates) :
    Statement × Nat → Option DecidedBranch
  | (.branch condition fallthroughIsTrue target, position) =>
    (((states.before position).resolve? condition).bind Constant.asBool?).map fun truth ↦
      { index := position
        eliminatedArm := !truth
        statementsEliminated := f.countDead lookahead position
        jumpIsDead := truth == fallthroughIsTrue
        target }
  | _ => none

/-- Propagation of constants through a function. Follows `ConstantPropagation::analyze`. -/
def propagate (f : Func) (ctx : Context) (lookahead : Nat) : Propagation :=
  let states := f.valueStates ctx
  let records := f.numbered.filterMap (constantRecord? states)
  { records
    decidedBranches := f.numbered.filterMap (f.decidedBranch? lookahead states)
    foldedCalls := records.countP (·.folded)
    states }

end Func
end SsaAdvisor
