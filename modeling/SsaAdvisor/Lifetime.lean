import SsaAdvisor.Escape
import SsaAdvisor.Propagation

/-!
# Lifetimes of manual allocations

For memory that the program releases itself, the last use of the allocated value and a point behind
it where a release could be inserted. A value that is captured or released already has none. The
release stands in front of its statement, which must be reached only through the allocation and at
most once for each.

Follows `LifetimeAnalysis::run`, `live_jumps` and `insertion_point`.
Spec guidance: `SPEC_FULL.md` §§4.5, 10.4.
-/

namespace SsaAdvisor

/-- What is known about the lifetime of one manual allocation. -/
structure Lifetime where
  index : Nat
  callee : String
  /-- The last statement that reads the value, or the allocation itself. -/
  lastUse : Nat
  /-- Why no release can be inserted, in order of statements. -/
  conflicts : List String
  /-- The statement in front of which a release can be inserted. -/
  releaseBefore : Option Nat
deriving DecidableEq, Repr

namespace Lifetime

/-- Whether a release can be inserted. -/
def canAutoFree (l : Lifetime) : Bool := l.releaseBefore.isSome

end Lifetime

namespace ValueUse

/-- Whether the use stands against inserting a release. -/
def isConflict (use : ValueUse) : Bool := use.kind.isCapture || use.kind == .release

/-- The written form of a use that stands against inserting a release. -/
def conflictText (use : ValueUse) : String :=
  match use.kind with
  | .unknownCall callee => "captured by unknown callee '" ++ callee ++ s!"' at #{use.index}"
  | _ => use.text

end ValueUse

/-- A jump from one position to another. -/
structure Jump where
  source : Nat
  target : Nat
deriving DecidableEq, Repr

namespace Func

/-- The jumps that propagation has not shown to be dead, in order of their sources.
Follows `live_jumps`. -/
def liveJumps (f : Func) (p : Propagation) : List Jump :=
  f.numbered.filterMap fun (s, position) ↦
    if p.jumpIsDead position then none else s.jumpTarget?.map fun target ↦ ⟨position, target⟩

/-- Whether some jump reaches behind the allocation, up to the position, from outside the statements
between the two. -/
def isBypassed (jumps : List Jump) (allocation position : Nat) : Bool :=
  jumps.any fun jump ↦
    decide (allocation < jump.target ∧ jump.target ≤ position)
      && !decide (allocation < jump.source ∧ jump.source < position)

/-- Whether a release may stand in front of the statement at a position: it is no join point, no
jump bypasses the allocation, and every loop around it is one around the allocation too. -/
def admitsRelease (f : Func) (jumps : List Jump) (joins : StatementSet)
    (allocation position : Nat) : Bool :=
  !joins.contains position && !isBypassed jumps allocation position
    && f.loopRegions.all fun l ↦ !l.contains position || l.contains allocation

/-- The first position behind the last use, up to the next return, that admits a release.
Follows `insertion_point`. -/
def releasePoint? (f : Func) (jumps : List Jump) (joins : StatementSet)
    (allocation lastUse : Nat) : Option Nat := do
  -- behind the return the value is gone; in front of it a release is still in time
  let ret ← f.nextReturn? lastUse
  (List.range' (lastUse + 1) (ret - lastUse)).find? (f.admitsRelease jumps joins allocation)

/-- The lifetime of one allocation. -/
def lifetime (f : Func) (ctx : Context) (jumps : List Jump) (joins : StatementSet)
    (site : AllocationSite) : Lifetime :=
  let uses := f.forwardUses ctx site.index
  let lastUse := (uses.getLast?.map (·.index)).getD site.index
  let conflicts := (uses.filter (·.isConflict)).map ValueUse.conflictText
  { index := site.index
    callee := site.callee
    lastUse
    conflicts
    releaseBefore :=
      if conflicts.isEmpty then f.releasePoint? jumps joins site.index lastUse else none }

/-- The lifetimes of the manual allocations of a function, in order.
Follows `LifetimeAnalysis::run`. -/
def lifetimes (f : Func) (ctx : Context) (lookahead : Nat) : List Lifetime :=
  let jumps := f.liveJumps (f.propagate ctx lookahead)
  let joins := StatementSet.ofList f.size (jumps.map (·.target))
  ((f.allocationSites ctx).filter (·.kind == .manual)).map (f.lifetime ctx jumps joins)

end Func
end SsaAdvisor
