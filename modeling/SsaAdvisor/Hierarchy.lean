import SsaAdvisor.NameMap
import SsaAdvisor.Ty.Basic

/-!
# The hierarchy of named types

Names carry at most one parent each, and a later parent replaces an earlier one, so the links form
a functional graph that may hold cycles. On top of it stand two questions about types. `isSubtype`
is a proof: it holds only where every value of the first type is one of the second. `intersects` is
a possibility: it fails only where the two types provably share no value, so a name that the
hierarchy does not know intersects everything but other leaf types.

Follows `TypeHierarchy`: `is_named_subtype`, `is_subtype`, `intersects` and `names_related`.
Spec guidance: `SPEC_FULL.md` §10.1.
-/

namespace SsaAdvisor

/-- Parent links between names of types. -/
structure Hierarchy where
  parents : NameMap String

namespace Hierarchy

/-- The hierarchy without links. -/
def empty : Hierarchy := ⟨.empty⟩

/-- Record the parent of a name. -/
def insert (h : Hierarchy) (child parent : String) : Hierarchy := ⟨h.parents.insert child parent⟩

/-- Record child and parent pairs from left to right. -/
def insertAll (h : Hierarchy) (links : List (String × String)) : Hierarchy :=
  ⟨h.parents.insertAll links⟩

/-- The usual tower of numbers, texts, arrays and dictionaries. -/
def builtin : Hierarchy :=
  empty.insertAll
    [("Real", "Number"), ("Complex", "Number"), ("Integer", "Real"), ("AbstractFloat", "Real"),
      ("Signed", "Integer"), ("Unsigned", "Integer"), ("Bool", "Integer"),
      ("Int8", "Signed"), ("Int16", "Signed"), ("Int32", "Signed"), ("Int64", "Signed"),
      ("Int128", "Signed"),
      ("UInt8", "Unsigned"), ("UInt16", "Unsigned"), ("UInt32", "Unsigned"),
      ("UInt64", "Unsigned"), ("UInt128", "Unsigned"),
      ("Float16", "AbstractFloat"), ("Float32", "AbstractFloat"), ("Float64", "AbstractFloat"),
      ("String", "AbstractString"), ("Char", "AbstractChar"),
      ("AbstractVector", "AbstractArray"), ("AbstractMatrix", "AbstractArray"),
      ("DenseArray", "AbstractArray"), ("Array", "DenseArray"),
      ("Vector", "AbstractVector"), ("Matrix", "AbstractMatrix"), ("Dict", "AbstractDict")]

/-- The parent of a name. -/
def parent? (h : Hierarchy) (name : String) : Option String := h.parents.get? name

/-- Whether the name stands at either end of a link. -/
def knows (h : Hierarchy) (name : String) : Bool :=
  h.parents.contains name || h.parents.anyValue (· == name)

/-- Whether a walk along parent links that visits at most `visits` names meets the ancestor. -/
def meets (h : Hierarchy) (ancestor : String) : Nat → String → Bool
  | 0, _ => false
  | visits + 1, name =>
    name == ancestor ||
      match h.parent? name with
      | some parent => h.meets ancestor visits parent
      | none => false

/-- Whether a name is the ancestor or reaches it along parent links. A walk that visits one name
more than there are links has either met all ancestors or entered a cycle.
Follows `is_named_subtype`. -/
def isNamedSubtype (h : Hierarchy) (child ancestor : String) : Bool :=
  h.meets ancestor (h.parents.size + 1) child

/-- Whether two names may share values: they are equal, one is an ancestor of the other, or the
hierarchy does not know them both. Follows `names_related`. -/
def related (h : Hierarchy) (a b : String) : Bool :=
  a == b || !h.knows a || !h.knows b || h.isNamedSubtype a b || h.isNamedSubtype b a

mutual
/-- Whether every value of the first type is provably one of the second. Container arguments vary
together with the container, and a container without arguments stands for all arguments.
Follows `is_subtype`. -/
def isSubtype (h : Hierarchy) : Ty → Ty → Bool
  | _, .top => true
  | .top, _ => false
  | .union members, sup => h.allSubtypes members sup
  | sub, .union members => h.subtypeOfAny sub members
  | .concrete a, .concrete b | .abstract a, .concrete b => a == b
  | .concrete a, .abstract b | .abstract a, .abstract b | .container a _, .abstract b =>
    h.isNamedSubtype a b
  | .container a as, .container b bs =>
    h.isNamedSubtype a b && (bs.isEmpty || (as.length == bs.length && h.allPairSubtypes as bs))
  | .container _ _, .concrete _ | .concrete _, .container _ _ | .abstract _, .container _ _ => false
termination_by sub sup => sizeOf sub + sizeOf sup

/-- Whether all types of the list are subtypes. -/
def allSubtypes (h : Hierarchy) : List Ty → Ty → Bool
  | [], _ => true
  | sub :: subs, sup => h.isSubtype sub sup && h.allSubtypes subs sup
termination_by subs sup => sizeOf subs + sizeOf sup

/-- Whether the type is a subtype of one of the list. -/
def subtypeOfAny (h : Hierarchy) : Ty → List Ty → Bool
  | _, [] => false
  | sub, sup :: sups => h.isSubtype sub sup || h.subtypeOfAny sub sups
termination_by sub sups => sizeOf sub + sizeOf sups

/-- Whether the types of two lists are subtypes position by position, up to the shorter length. -/
def allPairSubtypes (h : Hierarchy) : List Ty → List Ty → Bool
  | sub :: subs, sup :: sups => h.isSubtype sub sup && h.allPairSubtypes subs sups
  | [], _ | _ :: _, [] => true
termination_by subs sups => sizeOf subs + sizeOf sups
end

mutual
/-- Whether the two types may have a value in common. Follows `TypeHierarchy::intersects`. -/
def intersects (h : Hierarchy) : Ty → Ty → Bool
  | .top, _ | _, .top => true
  | .union members, other | other, .union members => h.anyIntersects members other
  | .concrete a, .concrete b => a == b
  | .concrete a, .abstract b | .abstract b, .concrete a => h.related a b
  | .abstract a, .abstract b => h.related a b
  | .container a _, .abstract b | .abstract b, .container a _ => h.related a b
  | .container a _, .concrete b | .concrete b, .container a _ => a == b
  | .container a as, .container b bs =>
    h.related a b && (as.length != bs.length || h.allPairsIntersect as bs)
termination_by a b => sizeOf a + sizeOf b

/-- Whether one of the listed types may have a value in common with the other type. -/
def anyIntersects (h : Hierarchy) : List Ty → Ty → Bool
  | [], _ => false
  | member :: members, other => h.intersects member other || h.anyIntersects members other
termination_by members other => sizeOf members + sizeOf other

/-- Whether the types of two lists may have values in common position by position, up to the shorter
length. -/
def allPairsIntersect (h : Hierarchy) : List Ty → List Ty → Bool
  | a :: as, b :: bs => h.intersects a b && h.allPairsIntersect as bs
  | [], _ | _ :: _, [] => true
termination_by as bs => sizeOf as + sizeOf bs
end

/-- The walk over subtypes is the library's `all`. -/
theorem allSubtypes_eq (h : Hierarchy) (subs : List Ty) (sup : Ty) :
    h.allSubtypes subs sup = subs.all (h.isSubtype · sup) := by
  induction subs with
  | nil => simp [allSubtypes]
  | cons sub subs ih => simp [allSubtypes, ih]

/-- The walk over supertypes is the library's `any`. -/
theorem subtypeOfAny_eq (h : Hierarchy) (sub : Ty) (sups : List Ty) :
    h.subtypeOfAny sub sups = sups.any (h.isSubtype sub ·) := by
  induction sups with
  | nil => simp [subtypeOfAny]
  | cons sup sups ih => simp [subtypeOfAny, ih]

/-- The walk over pairs is the library's `all` on the zipped lists. -/
theorem allPairSubtypes_eq (h : Hierarchy) (subs sups : List Ty) :
    h.allPairSubtypes subs sups = (subs.zip sups).all fun pair ↦ h.isSubtype pair.1 pair.2 := by
  induction subs generalizing sups with
  | nil => simp [allPairSubtypes]
  | cons sub subs ih => cases sups <;> simp [allPairSubtypes, ih]

/-- The walk over union members is the library's `any`. -/
theorem anyIntersects_eq (h : Hierarchy) (members : List Ty) (other : Ty) :
    h.anyIntersects members other = members.any (h.intersects · other) := by
  induction members with
  | nil => simp [anyIntersects]
  | cons member members ih => simp [anyIntersects, ih]

/-- The walk over pairs is the library's `all` on the zipped lists. -/
theorem allPairsIntersect_eq (h : Hierarchy) (as bs : List Ty) :
    h.allPairsIntersect as bs = (as.zip bs).all fun pair ↦ h.intersects pair.1 pair.2 := by
  induction as generalizing bs with
  | nil => simp [allPairsIntersect]
  | cons a as ih => cases bs <;> simp [allPairsIntersect, ih]

/-- An insertion is seen under its child and under no other name. -/
theorem parent?_insert (h : Hierarchy) (child parent name : String) :
    (h.insert child parent).parent? name = if name = child then some parent else h.parent? name :=
  NameMap.get?_insert _ _ _ _

end Hierarchy
end SsaAdvisor
