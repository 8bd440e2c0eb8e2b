import Mathlib.Data.Set.Defs
import SsaAdvisor.Ty.Order

/-!
# Parts of types

The parts of a type are the type, the members of its unions and the arguments of its containers, at
any depth. What is required of a whole type, such as that it has no union without members, is
required of its parts, so it holds of every member and argument.
-/

namespace SsaAdvisor.Ty

mutual
/-- The type and the types that it is built from. -/
def parts : Ty → List Ty
  | .union members => .union members :: partsAll members
  | .container name args => .container name args :: partsAll args
  | .top => [.top]
  | .concrete name => [.concrete name]
  | .abstract name => [.abstract name]

/-- The parts of the listed types. -/
def partsAll : List Ty → List Ty
  | [] => []
  | ty :: tys => ty.parts ++ partsAll tys
end

/-- The name of a concrete type. -/
def leafName? : Ty → Option String
  | .concrete name => some name
  | _ => none

/-- The name of an abstract or container type. -/
def nodeName? : Ty → Option String
  | .abstract name | .container name _ => some name
  | _ => none

/-- Whether the type is a union with the top type as a direct member. -/
def hasTopMember : Ty → Bool
  | .union members => members.any (· matches .top)
  | _ => false

mutual
/-- Whether the type is a union with nothing to choose from: all members are such unions. -/
def isVoid : Ty → Bool
  | .union members => allVoid members
  | _ => false

/-- Whether there is nothing to choose from in any of the listed types. -/
def allVoid : List Ty → Bool
  | [] => true
  | ty :: tys => ty.isVoid && allVoid tys
end

/-- Whether all parts of the type are as required. -/
def Throughout (required : Ty → Prop) (ty : Ty) : Prop := ∀ part ∈ ty.parts, required part

/-- Whether every union in the type has a member. -/
def NoEmptyUnion : Ty → Prop := Throughout (· ≠ .union [])

/-- Whether no union in the type has the top type as a direct member. -/
def NoTopMember : Ty → Prop := Throughout (·.hasTopMember = false)

/-- Whether the concrete types in the type are named as leaves and the others as inner nodes. -/
def Respects (leaves : Set String) : Ty → Prop :=
  Throughout fun part ↦ (∀ name, part.leafName? = some name → name ∈ leaves) ∧
    ∀ name, part.nodeName? = some name → name ∉ leaves

/-- Whether no name of a concrete type is also one of an abstract type or container, within the
types together. -/
def LeavesApart (tys : List Ty) : Prop :=
  ∀ name ∈ (partsAll tys).filterMap leafName?, name ∉ (partsAll tys).filterMap nodeName?

instance (required : Ty → Prop) [DecidablePred required] (ty : Ty) :
    Decidable (ty.Throughout required) :=
  inferInstanceAs (Decidable (∀ part ∈ ty.parts, required part))

instance (ty : Ty) : Decidable ty.NoEmptyUnion :=
  inferInstanceAs (Decidable (ty.Throughout (· ≠ .union [])))

instance (ty : Ty) : Decidable ty.NoTopMember :=
  inferInstanceAs (Decidable (ty.Throughout (·.hasTopMember = false)))

instance (tys : List Ty) : Decidable (LeavesApart tys) :=
  inferInstanceAs (Decidable (∀ name ∈ (partsAll tys).filterMap leafName?,
    name ∉ (partsAll tys).filterMap nodeName?))

variable {ty part m : Ty} {tys members args : List Ty} {name : String} {required : Ty → Prop}
  {leaves : Set String}

/-- The parts of the listed types are those of each. -/
theorem mem_partsAll : part ∈ partsAll tys ↔ ∃ ty ∈ tys, part ∈ ty.parts := by
  induction tys with
  | nil => simp [partsAll]
  | cons ty tys ih => simp [partsAll, ih]

private theorem mem_parts_self (ty : Ty) : ty ∈ ty.parts := by
  cases ty <;> simp [parts]

private theorem allVoid_eq (tys : List Ty) : allVoid tys = tys.all isVoid := by
  induction tys with
  | nil => rfl
  | cons ty tys ih => simp [allVoid, ih]

namespace Throughout

/-- The type is as required. -/
theorem self (h : ty.Throughout required) : required ty := h ty (mem_parts_self ty)

/-- The members of a union are throughout as required. -/
theorem of_union (h : (union members).Throughout required) (hm : m ∈ members) :
    m.Throughout required := by
  intro part hpart
  apply h
  rw [parts]
  exact List.mem_cons_of_mem _ (mem_partsAll.mpr ⟨m, hm, hpart⟩)

/-- The arguments of a container are throughout as required. -/
theorem of_container (h : (container name args).Throughout required) (hm : m ∈ args) :
    m.Throughout required := by
  intro part hpart
  apply h
  rw [parts]
  exact List.mem_cons_of_mem _ (mem_partsAll.mpr ⟨m, hm, hpart⟩)

/-- A union is throughout as required if it is and its members are throughout. -/
theorem union (h : required (.union members)) (hm : ∀ m ∈ members, m.Throughout required) :
    (Ty.union members).Throughout required := by
  intro part hpart
  rw [parts, List.mem_cons, mem_partsAll] at hpart
  rcases hpart with rfl | ⟨m, hmem, hpart⟩
  · exact h
  · exact hm m hmem part hpart

/-- A container is throughout as required if it is and its arguments are throughout. -/
theorem container (h : required (.container name args))
    (hm : ∀ arg ∈ args, arg.Throughout required) :
    (Ty.container name args).Throughout required := by
  intro part hpart
  rw [parts, List.mem_cons, mem_partsAll] at hpart
  rcases hpart with rfl | ⟨arg, hmem, hpart⟩
  · exact h
  · exact hm arg hmem part hpart

/-- A type without components is throughout as required if it is. -/
theorem leaf (hparts : ty.parts = [ty]) (h : required ty) : ty.Throughout required := by
  intro part hpart
  rw [hparts, List.mem_singleton] at hpart
  rwa [hpart]

end Throughout

/-- Where no union has the top type as a direct member, the members of a union are other types. -/
theorem NoTopMember.ne_top_of_mem (h : (union members).NoTopMember) (hm : m ∈ members) :
    m ≠ .top := by
  rintro rfl
  have hmember : (union members).hasTopMember = true := List.any_eq_true.mpr ⟨_, hm, rfl⟩
  exact Bool.false_ne_true (h.self.symm.trans hmember)

/-- Types whose leaf names are apart from the others respect their leaf names. -/
theorem LeavesApart.respects (h : LeavesApart tys) (hm : ty ∈ tys) :
    ty.Respects {name | name ∈ (partsAll tys).filterMap leafName?} := by
  intro part hpart
  have hparts : part ∈ partsAll tys := mem_partsAll.mpr ⟨ty, hm, hpart⟩
  refine ⟨?_, ?_⟩
  · intro name hname
    exact List.mem_filterMap.mpr ⟨part, hparts, hname⟩
  · intro name hname hleaf
    exact h name hleaf (List.mem_filterMap.mpr ⟨part, hparts, hname⟩)

/-- The name of a leaf is not that of an inner node. -/
theorem nodeName?_ne_of_leafName? {leaf node : Ty} (hleaf : leaf.Respects leaves)
    (hnode : node.Respects leaves) (hname : leaf.leafName? = some name) :
    node.nodeName? ≠ some name :=
  fun h ↦ hnode.self.2 name h (hleaf.self.1 name hname)

/-- A union has something to choose from exactly if one of its members has. -/
theorem isVoid_union_eq_false_iff :
    (union members).isVoid = false ↔ ∃ m ∈ members, m.isVoid = false := by
  rw [isVoid, allVoid_eq, List.all_eq_false]
  simp only [Bool.not_eq_true]

/-- A named type is a concrete type, an abstract type or a container. -/
theorem eq_of_name? (h : ty.name? = some name) :
    ty = .concrete name ∨ ty = .abstract name ∨ ∃ args, ty = .container name args := by
  cases ty <;> simp_all [name?]

/-- A named type is no union. -/
theorem isVoid_eq_false_of_name? (h : ty.name? = some name) : ty.isVoid = false := by
  cases ty with
  | union members => cases h
  | _ => rfl

/-- Where every union has a member there is something to choose from. -/
theorem isVoid_eq_false_of_noEmptyUnion : ∀ {ty : Ty}, ty.NoEmptyUnion → ty.isVoid = false
  | .top, _ | .concrete _, _ | .abstract _, _ | .container _ _, _ => rfl
  | .union [], h => absurd rfl h.self
  | .union (m :: _), h => isVoid_union_eq_false_iff.mpr
    ⟨m, List.mem_cons_self, isVoid_eq_false_of_noEmptyUnion (h.of_union List.mem_cons_self)⟩

end SsaAdvisor.Ty
