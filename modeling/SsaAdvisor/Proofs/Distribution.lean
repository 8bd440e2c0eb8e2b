import SsaAdvisor.Proofs.Dispatch
import SsaAdvisor.Proofs.MayShare

/-!
# Intersection with unions

Callers test types for intersection in either order, and read a union as a choice among its members.
A union on the left is that choice for every type on the right. The order of the two types shows
only where an empty union in one of them meets a union with the top type as a direct member in the
other; normalized unions are neither. Main statement: apart from such pairs intersection is
symmetric, so a union is a choice on the right as well, and the candidates for a receiver of a union
type are those for its members together.
-/

namespace SsaAdvisor

namespace Ty

variable {a b m : Ty} {members : List Ty}

/-- Whether none of the two types has an empty union where the other one has a union with the top
type as a direct member. -/
def WellPaired (a b : Ty) : Prop :=
  (a.NoEmptyUnion ∨ b.NoTopMember) ∧ (b.NoEmptyUnion ∨ a.NoTopMember)

instance (a b : Ty) : Decidable (WellPaired a b) :=
  inferInstanceAs (Decidable ((a.NoEmptyUnion ∨ b.NoTopMember) ∧ (b.NoEmptyUnion ∨ a.NoTopMember)))

namespace WellPaired

/-- Whether types are well paired does not depend on their order. -/
theorem symm (hp : WellPaired a b) : WellPaired b a := And.symm hp

/-- A type that is well paired with a union is so with its members. -/
theorem of_union (hp : WellPaired a (.union members)) (hm : m ∈ members) : WellPaired a m :=
  ⟨hp.1.imp_right (·.of_union hm), hp.2.imp_left (·.of_union hm)⟩

/-- Arguments of well paired containers are well paired. -/
theorem of_container {x y : String} {as bs : List Ty}
    (hp : WellPaired (.container x as) (.container y bs)) (ha : a ∈ as) (hb : b ∈ bs) :
    WellPaired a b :=
  ⟨hp.1.imp (·.of_container ha) (·.of_container hb),
    hp.2.imp (·.of_container hb) (·.of_container ha)⟩

private theorem isVoid_eq_false (hp : WellPaired a (.union members)) (hm : .top ∈ members) :
    a.isVoid = false := by
  rcases hp.1 with hfull | htop
  · exact isVoid_eq_false_of_noEmptyUnion hfull
  · exact absurd rfl (htop.ne_top_of_mem hm)

end WellPaired
end Ty

namespace Hierarchy

variable {h : Hierarchy} {a b : Ty} {members : List Ty}

private theorem MayShare.nonVoid (hs : h.MayShare (fun _ ↦ True) a b) (hp : Ty.WellPaired a b) :
    h.MayShare NonVoid a b := by
  induction hs with
  | topLeft b => exact .topLeft b
  | topRight a => exact .topRight a
  | unionLeft hm _ _ ih =>
    refine .unionLeft hm ?_ (ih (hp.symm.of_union hm).symm)
    rintro rfl
    exact hp.symm.isVoid_eq_false hm
  | unionRight hm _ _ ih =>
    refine .unionRight hm ?_ (ih (hp.of_union hm))
    rintro rfl
    exact hp.isVoid_eq_false hm
  | leafLeft hb => exact .leafLeft hb
  | leafRight ha => exact .leafRight ha
  | nodeLeft hb hr => exact .nodeLeft hb hr
  | nodeRight ha hr => exact .nodeRight ha hr
  | containers hr _ ih =>
    refine .containers hr ?_
    intro hl pair hm
    obtain ⟨ha, hb⟩ := List.of_mem_zip hm
    exact ih hl pair hm (hp.of_container ha hb)

/-- Well paired types intersect exactly if they may share a value. -/
theorem intersects_iff_mayShare (hp : Ty.WellPaired a b) :
    h.intersects a b = true ↔ h.MayShare NonVoid a b :=
  ⟨fun hi ↦ (mayShare_of_intersects hi).nonVoid hp, intersects_of_mayShare⟩

/-- Intersection of well paired types does not depend on their order. -/
theorem intersects_comm (hp : Ty.WellPaired a b) : h.intersects a b = h.intersects b a := by
  rw [Bool.eq_iff_iff, intersects_iff_mayShare hp, intersects_iff_mayShare hp.symm]
  exact ⟨MayShare.symm, MayShare.symm⟩

/-- A union with a member intersects another type exactly if one of its members does. -/
theorem intersects_union_iff (hne : members ≠ []) :
    h.intersects (.union members) b = true ↔ ∃ m ∈ members, h.intersects m b = true := by
  by_cases hb : b = .top
  · obtain ⟨m, hm⟩ := List.exists_mem_of_ne_nil members hne
    subst hb
    exact ⟨fun _ ↦ ⟨m, hm, intersects_top_right h m⟩, fun _ ↦ intersects_top_right h _⟩
  · exact intersects_union_left_iff hb

/-- A type intersects a union with a member, and well paired with the type, exactly if it intersects
one of the members. -/
theorem intersects_union_iff_right (hne : members ≠ []) (hp : Ty.WellPaired a (.union members)) :
    h.intersects a (.union members) = true ↔ ∃ m ∈ members, h.intersects a m = true := by
  rw [intersects_comm hp, intersects_union_iff hne]
  refine exists_congr fun m ↦ and_congr_right fun hm ↦ ?_
  rw [intersects_comm (hp.of_union hm)]

private theorem mem_candidates_union_iff {ctx : Context} {callee : String} {s : Signature}
    (hne : members ≠ []) (hp : ∀ ty, s.receiver? = some ty → Ty.WellPaired ty (.union members)) :
    s ∈ (ctx.candidates callee (.union members)).toList ↔
      ∃ m ∈ members, s ∈ (ctx.candidates callee m).toList := by
  simp only [Context.mem_candidates]
  constructor
  · rintro ⟨hregistered, ty, hty, hi⟩
    obtain ⟨m, hm, hi⟩ := (intersects_union_iff_right hne (hp ty hty)).mp hi
    exact ⟨m, hm, hregistered, ty, hty, hi⟩
  · rintro ⟨m, hm, hregistered, ty, hty, hi⟩
    exact ⟨hregistered, ty, hty, (intersects_union_iff_right hne (hp ty hty)).mpr ⟨m, hm, hi⟩⟩

/-- Intersection is symmetric on well paired types. A union with a member intersects what one of its
members intersects, and no more. Hence a method with a receiver type well paired with such a union
is a candidate for a receiver of the union exactly if it is one for a receiver of a member. -/
theorem intersects_symmetric_distributes (h : Hierarchy) :
    (∀ a b, Ty.WellPaired a b → h.intersects a b = h.intersects b a) ∧
    (∀ members b, members ≠ [] →
      (h.intersects (.union members) b = true ↔ ∃ m ∈ members, h.intersects m b = true)) ∧
    ∀ (ctx : Context) (callee : String) (members : List Ty) (s : Signature), members ≠ [] →
      (∀ ty, s.receiver? = some ty → Ty.WellPaired ty (.union members)) →
      (s ∈ (({ ctx with hierarchy := h } : Context).candidates callee (.union members)).toList ↔
        ∃ m ∈ members, s ∈ (({ ctx with hierarchy := h } : Context).candidates callee m).toList) :=
  ⟨fun _ _ ↦ intersects_comm, fun _ _ ↦ intersects_union_iff,
    fun _ _ _ _ ↦ mem_candidates_union_iff⟩

/-- Signed numbers or a box of nothing intersect a nested union in one order, hence in the other. A
text or anything intersects the empty union, by the latter. And the method for signed numbers is a
candidate for a text or an integer, by the latter. -/
theorem intersects_symmetric_distributes_show :
    let a := .union [.abstract "Signed", .container "Box" [.union []]]
    let b := .union [.union [.abstract "Integer", .container "Box" [.union [.int, .float]]], .bool]
    builtin.intersects b a = true ∧
    (∃ m ∈ [.string, .top], builtin.intersects m (.union []) = true) ∧
    ∃ m ∈ [.string, .abstract "Integer"], ⟨"show", [.abstract "Signed"]⟩ ∈
      (({ Func.shows with hierarchy := builtin } : Context).candidates "show" m).toList := by
  intro a b
  obtain ⟨hsymm, hdistributes, hcandidates⟩ := intersects_symmetric_distributes builtin
  refine ⟨?_, ?_, ?_⟩
  · rw [hsymm b a (by decide +kernel)]
    decide +kernel
  · exact (hdistributes _ _ (by simp)).mp (by decide +kernel)
  · refine (hcandidates Func.shows "show" _ _ (by simp) ?_).mp (by decide +kernel)
    rintro ty ⟨⟩
    decide +kernel

/-- The empty union and the union of the top type alone intersect in one order only. So a method
with the former as its receiver is a candidate for the member of the latter and not for the union.
-/
theorem intersects_depends_on_order :
    empty.intersects (.union []) (.union [.top]) = false ∧
      empty.intersects (.union [.top]) (.union []) = true ∧
      let ctx := { Context.initial with
        hierarchy := empty
        methods := MethodTable.empty.registerAll [⟨"show", [.union []]⟩] }
      (ctx.candidates "show" (.union [.top])).toList = [] ∧
        (ctx.candidates "show" .top).toList = [⟨"show", [.union []]⟩] := by
  decide +kernel

end Hierarchy
end SsaAdvisor
