import SsaAdvisor.Context.Basic

/-!
# Specialization of signatures

A signature can be specialized where a parameter's type is open: the type itself, or a container's
argument, one level deep. The concrete types for an open position are those observed, the members of
a declared union and the types at the same position of registered methods of the same name; only
where none is observed does a small table suggest some. One variant is needed for every combination.

Follows `analyze_signature`, `parameter` and `suggestions`.
Spec guidance: `SPEC_FULL.md` §§4.4, 10.4.
-/

namespace SsaAdvisor

/-- Where the concrete types for an open position come from. -/
inductive InstantiationSource where
  | observed
  | suggested
  | unresolved
deriving DecidableEq, Repr

namespace InstantiationSource

/-- The written form of a source. -/
def text : InstantiationSource → String
  | .observed => "observed"
  | .suggested => "suggested"
  | .unresolved => "unresolved"

end InstantiationSource

/-- An open position of a signature. -/
structure OpenParameter where
  /-- The parameter, counted from one. -/
  position : Nat
  /-- The container argument, counted from zero, if the open type stands inside a container. -/
  nested : Option Nat
  /-- The open type. -/
  declaredType : Ty
  /-- Concrete types that the position could be specialized to. -/
  instantiations : SortedSet Ty
  source : InstantiationSource
deriving DecidableEq

/-- What specialization of a signature needs. -/
structure Specialization where
  /-- The open positions in order. -/
  parameters : List OpenParameter
  /-- Whether every open position has a concrete type. -/
  canFullySpecialize : Bool
  /-- Number of specialized variants, at most the largest 64-bit number. -/
  requiredVariants : Nat
deriving DecidableEq

namespace Specialization

/-- Whether the signature has no open position. -/
def isEmpty (s : Specialization) : Bool := s.parameters.isEmpty

/-- The largest number of variants that is told apart. -/
def variantLimit : Nat := UInt64.size - 1

/-- The usual concrete types of the well-known abstract types. Follows `suggestions`. -/
def suggestions : Ty → List Ty
  | .abstract "Number" | .abstract "Real" => [.int, .float]
  | .abstract "Integer" | .abstract "Signed" => [.concrete "Int32", .int]
  | .abstract "AbstractFloat" => [.concrete "Float32", .float]
  | .abstract "AbstractArray" | .abstract "AbstractVector" =>
    [.container "Vector" [.float], .container "Vector" [.int]]
  | .abstract "AbstractString" => [.string]
  | _ => []

/-- The type at a position of a signature, or inside its container. -/
def typeAt? (signature : Signature) (position : Nat) (nested : Option Nat) : Option Ty :=
  let atPosition := signature.parameterTypes[position - 1]?
  match nested with
  | none => atPosition
  | some argument =>
    match atPosition with
    | some (.container _ args) => args[argument]?
    | _ => none

/-- The concrete types observed for an open type at a position. -/
def observed (ctx : Context) (methods : List Signature) (position : Nat) (nested : Option Nat)
    (declared : Ty) : List Ty :=
  declared.members.filter Ty.isConcrete
    ++ (methods.filterMap (typeAt? · position nested)).filter fun ty ↦
      ty.isConcrete && ctx.hierarchy.intersects ty declared

/-- The concrete types for an open type at a position, and where they come from.
Follows `Monomorphization::parameter`. -/
def openParameter (ctx : Context) (methods : List Signature) (position : Nat) (nested : Option Nat)
    (declared : Ty) : OpenParameter :=
  let found := observed ctx methods position nested declared
  let suggested := suggestions declared
  let (types, source) :=
    if !found.isEmpty then (found, InstantiationSource.observed)
    else if !suggested.isEmpty then (suggested, .suggested)
    else ([], .unresolved)
  ⟨position, nested, declared, .ofList types, source⟩

/-- The open types of a parameter's declared type: the type itself, or arguments of a container. -/
def openTypes (declared : Ty) : List (Option Nat × Ty) :=
  if declared.isAbstract then [(none, declared)]
  else declared.abstractArgs.map fun (argument, ty) ↦ (some argument, ty)

/-- The open positions of a signature in order. -/
def openParameters (ctx : Context) (signature : Signature) : List OpenParameter :=
  let methods := (ctx.methods.lookup? signature.name).getD []
  (signature.parameterTypes.zipIdx 1).flatMap fun (declared, position) ↦
    (openTypes declared).map fun (nested, ty) ↦ openParameter ctx methods position nested ty

/-- The number of variants for some open positions; every product beyond the limit counts as the
limit, and no open position needs no variant. -/
def variants (parameters : List OpenParameter) : Nat :=
  if parameters.isEmpty then 0
  else parameters.foldl (fun acc p ↦ min (acc * p.instantiations.size) variantLimit) 1

/-- What specialization of a signature needs. Follows `analyze_signature`. -/
def ofSignature (ctx : Context) (signature : Signature) : Specialization :=
  let parameters := openParameters ctx signature
  { parameters
    canFullySpecialize := parameters.all fun p ↦ !p.instantiations.isEmpty
    requiredVariants := variants parameters }

end Specialization
end SsaAdvisor
