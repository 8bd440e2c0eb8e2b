import SsaAdvisor.SortedSet
import SsaAdvisor.Ty.Order

/-!
# Normalized unions

A union is built from its members so that it has one form: member unions are opened, the members are
listed once each in ascending order, the top type absorbs everything, and a union of one member is
that member. Without members it is the top type.

Follows `Type::union`.
Spec guidance: `SPEC_FULL.md` §10.1.
-/

namespace SsaAdvisor.Ty

/-- The union of the given types in normal form. Only the members of member unions are opened, one
level deep, and only a direct member absorbs; both suffice when the members are normalized.
Follows `Type::union`. -/
def unionOf (tys : List Ty) : Ty :=
  if tys.any fun ty ↦ ty matches .top then .top
  else
    match (SortedSet.ofList (tys.flatMap members)).toList with
    | [] => .top
    | [ty] => ty
    | tys => .union tys

/-- A direct member that is the top type absorbs the union. -/
theorem unionOf_eq_top_of_mem {tys : List Ty} (h : .top ∈ tys) : unionOf tys = .top := by
  have : (tys.any fun ty ↦ ty matches .top) = true := List.any_eq_true.mpr ⟨_, h, rfl⟩
  simp [unionOf, this]

/-- What the types together leave to choose from, each choice once and in ascending order. -/
def choices (tys : List Ty) : List Ty := (SortedSet.ofList (tys.flatMap members)).toList

variable {m : Ty} {tys xs ys : List Ty}

/-- The choices are the members of the types. -/
theorem mem_choices : m ∈ choices tys ↔ ∃ ty ∈ tys, m ∈ ty.members := by
  rw [choices, SortedSet.mem_ofList, List.mem_flatMap]

/-- Without the top type, the union is what there is to choose from. -/
theorem unionOf_eq (htop : .top ∉ tys) : unionOf tys =
    match choices tys with
    | [] => .top
    | [ty] => ty
    | tys => .union tys := by
  have hany : (tys.any fun ty ↦ ty matches .top) = false := by
    rw [List.any_eq_false]
    intro ty hty hmatch
    cases ty with
    | top => exact htop hty
    | _ => cases hmatch
  simp [unionOf, hany, choices]

/-- The union depends on nothing but whether the top type is given and what there is to choose
from. -/
theorem unionOf_congr (htop : .top ∈ xs ↔ .top ∈ ys)
    (hchoices : ∀ m, m ∈ choices xs ↔ m ∈ choices ys) : unionOf xs = unionOf ys := by
  by_cases hx : .top ∈ xs
  · rw [unionOf_eq_top_of_mem hx, unionOf_eq_top_of_mem (htop.mp hx)]
  · have hsame : choices xs = choices ys :=
      SortedSet.eq_of_pairwise (SortedSet.pairwise_ofList _) (SortedSet.pairwise_ofList _) hchoices
    rw [unionOf_eq hx, unionOf_eq (mt htop.mpr hx), hsame]

/-- The union does not depend on the order and repetitions of the types. -/
theorem unionOf_congr_mem (hmem : ∀ ty, ty ∈ xs ↔ ty ∈ ys) : unionOf xs = unionOf ys := by
  apply unionOf_congr (hmem .top)
  intro m
  simp only [mem_choices, hmem]

end SsaAdvisor.Ty
