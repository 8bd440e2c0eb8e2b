import SsaAdvisor.Proofs.Parts
import SsaAdvisor.Proofs.Shape

/-!
# Subtyping is a preorder

Every type is a subtype of itself, and subtypes of subtypes are subtypes, also where parent links
run in a cycle. Two kinds of types are exceptions. A union with the top type as a direct member is
not below itself, as nothing but the top type is above the top type. And a name that is abstract in
one place and concrete in another is looked up among the ancestors in the first and compared in the
second, so a chain through both breaks off.
-/

namespace SsaAdvisor

namespace Ty

/-- Whether no name of a concrete type is also one of an abstract type, within all the types. -/
def KindsApart (tys : List Ty) : Prop :=
  ∀ name ∈ (partsAll tys).filterMap leafName?, .abstract name ∉ partsAll tys

instance (tys : List Ty) : Decidable (KindsApart tys) :=
  inferInstanceAs (Decidable (∀ name ∈ (partsAll tys).filterMap leafName?,
    .abstract name ∉ partsAll tys))

end Ty

namespace Hierarchy

variable {h : Hierarchy} {leaves : Set String} {a b c m : Ty} {members : List Ty}
  {x y : String}

private theorem isSubtype_union_of_mem {a : Ty} (ha : a.NoTopMember) (hne : a ≠ .top)
    (hm : m ∈ members) (hs : h.isSubtype a m = true) : h.isSubtype a (.union members) = true := by
  match a with
  | .top => exact absurd rfl hne
  | .union inner =>
    apply isSubtype_union_left_iff.mpr
    intro a ham
    have hlt := Ty.sizeOf_lt_union ham
    exact isSubtype_union_of_mem (ha.of_union ham) (ha.ne_top_of_mem ham) hm
      (isSubtype_of_mem hs ham)
  | .concrete _ | .abstract _ | .container _ _ => exact (isSubtype_union_iff rfl).mpr ⟨m, hm, hs⟩
termination_by sizeOf a

/-- A type is a subtype of itself, unless it has a union with the top type as a direct member. -/
theorem isSubtype_self {a : Ty} (ha : a.NoTopMember) : h.isSubtype a a = true := by
  match a with
  | .top => simp [isSubtype]
  | .concrete x => simp [isSubtype]
  | .abstract x => exact (isSubtype_abstract_iff rfl).mpr (isNamedSubtype_self h x)
  | .union members =>
    apply isSubtype_union_left_iff.mpr
    intro m hm
    have hlt := Ty.sizeOf_lt_union hm
    exact isSubtype_union_of_mem (ha.of_union hm) (ha.ne_top_of_mem hm) hm
      (isSubtype_self (ha.of_union hm))
  | .container x args =>
    refine (isSubtype_container_iff rfl).mpr ⟨args, rfl, isNamedSubtype_self h x, .inr ?_⟩
    apply List.forall₂_same.mpr
    intro arg harg
    have hlt := Ty.sizeOf_lt_container x harg
    exact isSubtype_self (ha.of_container harg)
termination_by sizeOf a

private theorem isSubtype_container_of_args {z : String} {cs : List Ty} (hx : a.name? = some x)
    (hy : b.name? = some y) (hab : h.isSubtype a b = true)
    (hbc : h.isSubtype b (.container z cs) = true)
    (hargs : ∀ as bs, a = .container x as → b = .container y bs → ∀ m ∈ as, ∀ n ∈ bs, ∀ k ∈ cs,
      h.isSubtype m n = true → h.isSubtype n k = true → h.isSubtype m k = true) :
    h.isSubtype a (.container z cs) = true := by
  obtain ⟨bs, rfl, hyz, hbcs⟩ := (isSubtype_container_iff hy).mp hbc
  obtain ⟨as, rfl, hxy, habs⟩ := (isSubtype_container_iff hx).mp hab
  refine (isSubtype_container_iff rfl).mpr ⟨as, rfl, isNamedSubtype_trans hxy hyz, ?_⟩
  rcases hbcs with rfl | hbcs
  · exact .inl rfl
  rcases habs with rfl | habs
  · cases hbcs
    exact .inl rfl
  right
  apply forall₂_of_common habs.flip hbcs
  intro n hn m hm k hk hmn hnk
  exact hargs as bs rfl rfl m hm n hn k hk hmn hnk

/-- A subtype of a subtype is a subtype, if no abstract type within the second one has the name of a
concrete type within the third one. -/
theorem isSubtype_trans {a b c : Ty} (hb : b.Throughout fun part ↦ ∀ x ∈ leaves, part ≠ .abstract x)
    (hc : c.Throughout fun part ↦ ∀ x, part.leafName? = some x → x ∈ leaves)
    (hab : h.isSubtype a b = true) (hbc : h.isSubtype b c = true) : h.isSubtype a c = true := by
  cases hx : a.name? with
  | none =>
    match a with
    | .top =>
      rw [eq_top_of_isSubtype hab] at hbc
      exact hbc
    | .union members =>
      apply isSubtype_union_left_iff.mpr
      intro m hm
      have hlt := Ty.sizeOf_lt_union hm
      exact isSubtype_trans hb hc (isSubtype_of_mem hab hm) hbc
  | some x =>
    cases hy : b.name? with
    | none =>
      match b with
      | .top =>
        rw [eq_top_of_isSubtype hbc]
        simp [isSubtype]
      | .union members =>
        obtain ⟨m, hm, hab⟩ := (isSubtype_union_iff hx).mp hab
        have hlt := Ty.sizeOf_lt_union hm
        exact isSubtype_trans (hb.of_union hm) hc hab (isSubtype_of_mem hbc hm)
    | some y =>
      cases hshape : c with
      | top => simp [isSubtype]
      | union members =>
        obtain ⟨m, hm, hbc⟩ := (isSubtype_union_iff hy).mp (hshape ▸ hbc)
        have hlt : sizeOf m < sizeOf c := hshape ▸ Ty.sizeOf_lt_union hm
        have hcm := (hshape ▸ hc).of_union hm
        exact (isSubtype_union_iff hx).mpr ⟨m, hm, isSubtype_trans hb hcm hab hbc⟩
      | abstract z =>
        apply (isSubtype_abstract_iff hx).mpr
        exact isNamedSubtype_trans (isNamedSubtype_of_isSubtype hx hy hab)
          ((isSubtype_abstract_iff hy).mp (hshape ▸ hbc))
      | concrete z =>
        subst hshape
        obtain rfl := eq_of_isSubtype_concrete hy hbc
        rcases Ty.eq_of_name? hy with rfl | rfl | ⟨bs, rfl⟩
        · exact hab
        · exact absurd rfl (hb.self y (hc.self y rfl))
        · simp [isSubtype] at hbc
      | container z cs =>
        apply isSubtype_container_of_args hx hy hab (hshape ▸ hbc)
        intro as bs has hbs m hm n hn k hk hmn hnk
        have hlt : sizeOf m < sizeOf a := has ▸ Ty.sizeOf_lt_container x hm
        have hlt' : sizeOf n < sizeOf b := hbs ▸ Ty.sizeOf_lt_container y hn
        have hlt'' : sizeOf k < sizeOf c := hshape ▸ Ty.sizeOf_lt_container z hk
        exact isSubtype_trans ((hbs ▸ hb).of_container hn) ((hshape ▸ hc).of_container hk) hmn hnk
termination_by sizeOf a + sizeOf b + sizeOf c
decreasing_by all_goals omega

private theorem isSubtype_trans_of_kindsApart (hapart : Ty.KindsApart [a, b, c])
    (hab : h.isSubtype a b = true) (hbc : h.isSubtype b c = true) : h.isSubtype a c = true := by
  have hb : b.Throughout fun part ↦
      ∀ x ∈ {x | x ∈ (Ty.partsAll [a, b, c]).filterMap Ty.leafName?}, part ≠ .abstract x := by
    rintro part hpart x hx rfl
    exact hapart x hx (Ty.mem_partsAll.mpr ⟨b, by simp, hpart⟩)
  have hc : c.Throughout fun part ↦ ∀ x, part.leafName? = some x →
      x ∈ {x | x ∈ (Ty.partsAll [a, b, c]).filterMap Ty.leafName?} := by
    intro part hpart x hx
    exact List.mem_filterMap.mpr ⟨part, Ty.mem_partsAll.mpr ⟨c, by simp, hpart⟩, hx⟩
  exact isSubtype_trans hb hc hab hbc

/-- Subtyping is a preorder, whatever the parent links: it is reflexive on the types in which no
union has the top type as a direct member, and transitive among types that use no name both for a
concrete and for an abstract type. -/
theorem isSubtype_preorder (h : Hierarchy) :
    (∀ a : Ty, a.NoTopMember → h.isSubtype a a = true) ∧
    ∀ a b c : Ty, Ty.KindsApart [a, b, c] → h.isSubtype a b = true → h.isSubtype b c = true →
      h.isSubtype a c = true :=
  ⟨fun _ ↦ isSubtype_self, fun _ _ _ ↦ isSubtype_trans_of_kindsApart⟩

/-- Two names that are each other's parent. -/
def cyclic : Hierarchy := builtin.insertAll [("Sequence", "Collection"), ("Collection", "Sequence")]

/-- A nested union of vectors and sequences is below itself, and a vector of integers is below it,
by way of a union of collections. -/
theorem isSubtype_preorder_collections :
    let vectors := .container "Vector" [.union [.int, .abstract "Real"]]
    let c := .union [.string, .union [.abstract "Sequence", vectors]]
    cyclic.isSubtype c c = true ∧
      cyclic.isSubtype (.union [.container "Vector" [.int], .abstract "Sequence"])
        (.union [vectors, .abstract "Collection"]) = true ∧
      cyclic.isSubtype (.union [.container "Vector" [.int], .abstract "Sequence"]) c = true := by
  intro vectors c
  obtain ⟨hself, htrans⟩ := isSubtype_preorder cyclic
  have hab : cyclic.isSubtype (.union [.container "Vector" [.int], .abstract "Sequence"])
      (.union [vectors, .abstract "Collection"]) = true := by decide +kernel
  exact ⟨hself c (by decide +kernel), hab,
    htrans _ _ c (by decide +kernel) hab (by decide +kernel)⟩

end Hierarchy
end SsaAdvisor
