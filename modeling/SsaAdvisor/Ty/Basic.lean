/-!
# Declared types

Every value and parameter of a function carries a declared type. This module holds the type
language, the structural questions that need no hierarchy, and the written form of types.

Follows `Type`, its queries and its written form.
Spec guidance: `SPEC_FULL.md` §10.1.
-/

namespace SsaAdvisor

/-- The declared type of a value, a parameter or a method's receiver. -/
inductive Ty where
  /-- The supertype of all types. -/
  | top
  /-- A leaf type with a fixed layout. -/
  | concrete (name : String)
  /-- A named inner node of the hierarchy. -/
  | abstract (name : String)
  /-- One of several member types. -/
  | union (members : List Ty)
  /-- A parameterized type. -/
  | container (name : String) (args : List Ty)
deriving Repr, Inhabited

namespace Ty

/-- The type of integer constants. -/
def int : Ty := .concrete "Int64"
/-- The type of floating constants. -/
def float : Ty := .concrete "Float64"
/-- The type of truth values. -/
def bool : Ty := .concrete "Bool"
/-- The type of texts. -/
def string : Ty := .concrete "String"
/-- The type of the value that carries no information. -/
def nothing : Ty := .concrete "Nothing"

mutual
/-- Whether values of the type have one statically known runtime type: leaf types do, and
containers all of whose arguments do. -/
def isConcrete : Ty → Bool
  | .concrete _ => true
  | .container _ args => allConcrete args
  | .top | .abstract _ | .union _ => false

/-- Whether every type of the list is concrete. -/
def allConcrete : List Ty → Bool
  | [] => true
  | ty :: tys => ty.isConcrete && allConcrete tys
end

/-- The list walk is the library's `all`. -/
theorem allConcrete_eq (tys : List Ty) : allConcrete tys = tys.all isConcrete := by
  induction tys with
  | nil => rfl
  | cons ty tys ih => simp [allConcrete, ih]

/-- Whether dispatch on the type is open: it is the top type, abstract or a union. A container is
not, even when its arguments are. -/
def isAbstract : Ty → Bool
  | .top | .abstract _ | .union _ => true
  | .concrete _ | .container _ _ => false

/-- The abstract arguments of a container with their positions from zero, one level deep. -/
def abstractArgs : Ty → List (Nat × Ty)
  | .container _ args =>
    args.zipIdx.filterMap fun (arg, position) ↦
      if arg.isAbstract then some (position, arg) else none
  | _ => []

/-- The name of a concrete, abstract or container type. -/
def name? : Ty → Option String
  | .concrete name | .abstract name | .container name _ => some name
  | .top | .union _ => none

/-- The members of a union, or the type itself. -/
def members : Ty → List Ty
  | .union members => members
  | ty => [ty]

/-- The first argument of a container. -/
def elementType? : Ty → Option Ty
  | .container _ args => args.head?
  | _ => none

/-- Size in bytes of the primitive with this name. -/
def primitiveSize? : String → Option Nat
  | "Bool" | "Int8" | "UInt8" => some 1
  | "Int16" | "UInt16" | "Float16" => some 2
  | "Int32" | "UInt32" | "Float32" | "Char" => some 4
  | "Int64" | "UInt64" | "Float64" | "Ptr" => some 8
  | "Int128" | "UInt128" | "ComplexF64" => some 16
  | _ => none

/-- Size in bytes of a value, known for types that bear the name of a fixed-size primitive.
Follows `size_bytes`. -/
def sizeBytes? (ty : Ty) : Option Nat := ty.name?.bind primitiveSize?

/-- Written forms separated by commas. -/
def commaSeparated (texts : List String) : String := ", ".intercalate texts

mutual
/-- The written form of a type. -/
def text : Ty → String
  | .top => "Any"
  | .concrete name | .abstract name => name
  | .union members => "Union\x7b" ++ commaSeparated (texts members) ++ "\x7d"
  | .container name args => name ++ "\x7b" ++ commaSeparated (texts args) ++ "\x7d"

/-- The written forms of a list of types. -/
def texts : List Ty → List String
  | [] => []
  | ty :: tys => ty.text :: texts tys
end

/-- The list walk is the library's `map`. -/
theorem texts_eq (tys : List Ty) : texts tys = tys.map text := by
  induction tys with
  | nil => rfl
  | cons ty tys ih => simp [texts, ih]

/-- A union is larger than its members. -/
theorem sizeOf_lt_union {ty : Ty} {members : List Ty} (h : ty ∈ members) :
    sizeOf ty < sizeOf (Ty.union members) := by
  have := List.sizeOf_lt_of_mem h
  rw [union.sizeOf_spec]
  omega

/-- A container is larger than its arguments. -/
theorem sizeOf_lt_container {ty : Ty} {args : List Ty} (name : String) (h : ty ∈ args) :
    sizeOf ty < sizeOf (Ty.container name args) := by
  have := List.sizeOf_lt_of_mem h
  rw [container.sizeOf_spec]
  omega

/-- A type is never both concrete and open to dispatch. -/
theorem isAbstract_eq_false_of_isConcrete {ty : Ty} (h : ty.isConcrete = true) :
    ty.isAbstract = false := by
  cases ty <;> simp_all [isConcrete, isAbstract]

end Ty
end SsaAdvisor
