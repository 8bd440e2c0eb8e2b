import SsaAdvisor.Context.Basic
import SsaAdvisor.Func.Basic

/-!
# Allocation sites

A call whose callee is a known allocator is an allocation site. Its size is estimated only from
constants that stand at the call, immediate or defined by a literal, and only as long as every
intermediate result fits 64 bits; anything else leaves the size unknown.

Follows `allocation_sites`, `estimate_size`, `product` and `constant_operand`.
Spec guidance: `SPEC_FULL.md` §§3, 10.2.
-/

namespace SsaAdvisor

/-- A call that allocates. -/
structure AllocationSite where
  /-- Position of the call, which also names the allocated value. -/
  index : Nat
  callee : String
  kind : MemoryKind
  /-- Size in bytes, if known. -/
  estimatedBytes : Option Nat
deriving DecidableEq, Repr

namespace AllocationSite

/-- Whether the size is known. -/
def sizeKnown (site : AllocationSite) : Bool := site.estimatedBytes.isSome

end AllocationSite

/-- A size that fits 64 bits. -/
def byteCount? (n : Nat) : Option Nat := if n < UInt64.size then some n else none

namespace Func

/-- The constant that an operand is or names through a literal. Follows `constant_operand`. -/
def literalOperand? (f : Func) : Operand → Option Constant
  | .const c => some c
  | .value position =>
    match f.statement? position with
    | some (.literal c _) => some c
    | _ => none
  | .argument _ => none

/-- The natural number that an operand is or names through a literal. -/
def dimension? (f : Func) (op : Operand) : Option Nat := do
  let dimension ← (← f.literalOperand? op).asInt?
  if 0 ≤ dimension.toInt then some dimension.toInt.toNat else none

/-- The length in UTF-8 of the text that an operand is or names through a literal. -/
def textLength? (f : Func) (op : Operand) : Option Nat :=
  match f.literalOperand? op with
  | some (.str s) => some s.utf8ByteSize
  | _ => none

/-- Product of dimensions, as long as every partial product fits. Follows `product`. -/
def product? (f : Func) (ops : List Operand) : Option Nat :=
  ops.foldlM (fun acc op ↦ do byteCount? (acc * (← f.dimension? op))) 1

/-- Total of text lengths, as long as every partial total fits. -/
def totalLength? (f : Func) (ops : List Operand) : Option Nat :=
  ops.foldlM (fun acc op ↦ do byteCount? (acc + (← f.textLength? op))) 0

/-- Product of at least one dimension. -/
def properProduct? (f : Func) (ops : List Operand) : Option Nat :=
  if ops.isEmpty then none else f.product? ops

/-- The size of an allocation by its rule. Follows `estimate_size`. -/
def estimate? (f : Func) (rule : SizeRule) (args : List Operand) (resultType : Ty) : Option Nat :=
  match rule with
  | .fixed bytes => some bytes
  | .elements elementBytes firstDimension => do
    let elementBytes ← elementBytes.or (resultType.elementType?.bind Ty.sizeBytes?)
    byteCount? ((← f.properProduct? (args.drop firstDimension)) * elementBytes)
  | .bytes => f.properProduct? args
  | .stringLength => f.totalLength? args
  | .unknown => none

/-- The allocation at a numbered statement. -/
def allocationAt? (f : Func) (ctx : Context) : Statement × Nat → Option AllocationSite
  | (.call callee args resultType, position) =>
    (ctx.allocator? callee).map fun allocator ↦
      ⟨position, callee, allocator.kind, f.estimate? allocator.size args resultType⟩
  | _ => none

/-- The allocation sites of a function in order. Follows `allocation_sites`. -/
def allocationSites (f : Func) (ctx : Context) : List AllocationSite :=
  f.numbered.filterMap (f.allocationAt? ctx)

/-- A statement allocates if it calls a known allocator, which says what it allocates. -/
theorem allocationAt?_eq_some_iff {f : Func} {ctx : Context} {s : Statement} {position : Nat}
    {site : AllocationSite} :
    f.allocationAt? ctx (s, position) = some site ↔
      ∃ callee args resultType allocator,
        s = .call callee args resultType ∧ ctx.allocator? callee = some allocator ∧
          site = ⟨position, callee, allocator.kind,
            f.estimate? allocator.size args resultType⟩ := by
  cases s with
  | call callee args resultType =>
    simp only [allocationAt?, Option.map_eq_some_iff]
    constructor
    · rintro ⟨allocator, ha, rfl⟩
      exact ⟨callee, args, resultType, allocator, rfl, ha, rfl⟩
    · rintro ⟨_, _, _, allocator, hs, ha, rfl⟩
      obtain ⟨rfl, rfl, rfl⟩ := Statement.call.inj hs
      exact ⟨allocator, ha, rfl⟩
  | _ => simp [allocationAt?]

/-- The allocation sites are the calls of known allocators, with what the allocator says of them. -/
theorem mem_allocationSites {f : Func} {ctx : Context} {site : AllocationSite} :
    site ∈ f.allocationSites ctx ↔
      ∃ callee args resultType allocator,
        f.statement? site.index = some (.call callee args resultType) ∧
          ctx.allocator? callee = some allocator ∧
          site = ⟨site.index, callee, allocator.kind,
            f.estimate? allocator.size args resultType⟩ := by
  simp only [allocationSites, List.mem_filterMap, Prod.exists, mem_numbered,
    allocationAt?_eq_some_iff]
  constructor
  · rintro ⟨_, position, hs, callee, args, resultType, allocator, rfl, ha, rfl⟩
    exact ⟨callee, args, resultType, allocator, hs, ha, rfl⟩
  · rintro ⟨callee, args, resultType, allocator, hs, ha, hsite⟩
    exact ⟨_, _, hs, callee, args, resultType, allocator, rfl, ha, hsite⟩

end Func
end SsaAdvisor
