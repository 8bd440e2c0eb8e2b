import Mathlib.Data.List.Forall2
import SsaAdvisor.Proofs.Ancestor

/-!
# The tests on types, by shape

The test for subtypes and the test for intersection look at the shapes of both types. This module
says what they come to for unions and for named types, which are the concrete and abstract types and
the containers: a choice among members, a relation of names, and for two containers a test of their
arguments position by position.
-/

namespace SsaAdvisor.Hierarchy

/-- Lists that are related to the same list position by position are related to each other, if
their elements are. -/
theorem forall₂_of_common {α : Type} {R S T : α → α → Prop} {cs as bs : List α}
    (ha : List.Forall₂ R cs as) (hb : List.Forall₂ S cs bs)
    (hT : ∀ c ∈ cs, ∀ a ∈ as, ∀ b ∈ bs, R c a → S c b → T a b) : List.Forall₂ T as bs := by
  induction ha generalizing bs with
  | nil =>
    cases hb
    exact .nil
  | cons hca _ ih =>
    cases hb with
    | cons hcb hbs =>
      refine .cons (hT _ List.mem_cons_self _ List.mem_cons_self _ List.mem_cons_self hca hcb)
        (ih hbs ?_)
      intro c hc a ha b hb
      exact hT c (List.mem_cons_of_mem _ hc) a (List.mem_cons_of_mem _ ha) b
        (List.mem_cons_of_mem _ hb)

variable {h : Hierarchy} {a b m : Ty} {members as bs : List Ty} {x y : String}

private theorem allPairSubtypes_iff (hl : as.length = bs.length) :
    h.allPairSubtypes as bs = true ↔
      List.Forall₂ (fun sub sup ↦ h.isSubtype sub sup = true) as bs := by
  simp [allPairSubtypes_eq, List.forall₂_iff_zip, hl]

private theorem allPairsIntersect_iff (hl : as.length = bs.length) :
    h.allPairsIntersect as bs = true ↔
      List.Forall₂ (fun a b ↦ h.intersects a b = true) as bs := by
  simp [allPairsIntersect_eq, List.forall₂_iff_zip, hl]

/-- The only supertype of the top type is the top type. -/
theorem eq_top_of_isSubtype (hs : h.isSubtype .top b = true) : b = .top := by
  cases b with
  | top => rfl
  | _ => simp [isSubtype] at hs

/-- A union is a subtype of another type exactly if all its members are. -/
theorem isSubtype_union_left_iff :
    h.isSubtype (.union members) b = true ↔ ∀ m ∈ members, h.isSubtype m b = true := by
  cases b with
  | top => simp [isSubtype]
  | _ => simp [isSubtype, allSubtypes_eq]

/-- The members of a union are subtypes of all its supertypes. -/
theorem isSubtype_of_mem (hs : h.isSubtype (.union members) b = true) (hm : m ∈ members) :
    h.isSubtype m b = true :=
  isSubtype_union_left_iff.mp hs m hm

/-- A named type is a subtype of a union exactly if it is one of a member. -/
theorem isSubtype_union_iff (ha : a.name? = some x) :
    h.isSubtype a (.union members) = true ↔ ∃ m ∈ members, h.isSubtype a m = true := by
  cases a with
  | top | union => cases ha
  | _ => simp [isSubtype, subtypeOfAny_eq]

/-- The name of a subtype is below that of the supertype. -/
theorem isNamedSubtype_of_isSubtype (ha : a.name? = some x) (hb : b.name? = some y)
    (hs : h.isSubtype a b = true) : h.isNamedSubtype x y = true := by
  cases a with
  | top | union => cases ha
  | _ =>
    cases b with
    | top | union => cases hb
    | _ =>
      obtain rfl := Option.some.inj ha
      obtain rfl := Option.some.inj hb
      simp_all [isSubtype, isNamedSubtype_self]

/-- A named type is a subtype of an abstract type exactly if its name is below. -/
theorem isSubtype_abstract_iff (ha : a.name? = some x) :
    h.isSubtype a (.abstract y) = true ↔ h.isNamedSubtype x y = true := by
  cases a with
  | top | union => cases ha
  | _ =>
    obtain rfl := Option.some.inj ha
    rw [isSubtype]

/-- A named subtype of a concrete type has its name. -/
theorem eq_of_isSubtype_concrete (ha : a.name? = some x)
    (hs : h.isSubtype a (.concrete y) = true) : x = y := by
  cases a with
  | top | union => cases ha
  | container => simp [isSubtype] at hs
  | _ =>
    obtain rfl := Option.some.inj ha
    simpa [isSubtype] using hs

/-- A named type is a subtype of a container exactly if it is a container with a name below and
with arguments that are subtypes, where the supertype has arguments. -/
theorem isSubtype_container_iff (ha : a.name? = some x) :
    h.isSubtype a (.container y bs) = true ↔
      ∃ as, a = .container x as ∧ h.isNamedSubtype x y = true ∧
        (bs = [] ∨ List.Forall₂ (fun sub sup ↦ h.isSubtype sub sup = true) as bs) := by
  cases a with
  | top | union => cases ha
  | concrete | abstract => simp [isSubtype]
  | container x as =>
    obtain rfl := Option.some.inj ha
    simp only [isSubtype, Bool.and_eq_true, Bool.or_eq_true, List.isEmpty_iff, beq_iff_eq,
      Ty.container.injEq, true_and, exists_eq_left']
    refine and_congr_right fun _ ↦ or_congr_right ?_
    constructor
    · rintro ⟨hl, hp⟩
      exact (allPairSubtypes_iff hl).mp hp
    · intro hp
      exact ⟨hp.length_eq, (allPairSubtypes_iff hp.length_eq).mpr hp⟩

/-- Every type intersects the top type. -/
@[simp]
theorem intersects_top_right (h : Hierarchy) (a : Ty) : h.intersects a .top = true := by
  cases a <;> simp [intersects]

/-- A union intersects another type, other than the top type, exactly if one of its members does. -/
theorem intersects_union_left_iff (hb : b ≠ .top) :
    h.intersects (.union members) b = true ↔ ∃ m ∈ members, h.intersects m b = true := by
  cases b with
  | top => exact absurd rfl hb
  | _ => simp [intersects, anyIntersects_eq]

/-- A union intersects what one of its members intersects. -/
theorem intersects_union_left (hm : m ∈ members) (hi : h.intersects m b = true) :
    h.intersects (.union members) b = true := by
  by_cases hb : b = .top
  · simp [hb]
  · exact (intersects_union_left_iff hb).mpr ⟨m, hm, hi⟩

/-- A named type intersects a union exactly if one of the members intersects it. -/
theorem intersects_union_right_iff (ha : a.name? = some x) :
    h.intersects a (.union members) = true ↔ ∃ m ∈ members, h.intersects m a = true := by
  cases a with
  | top | union => cases ha
  | _ => simp [intersects, anyIntersects_eq]

/-- An abstract type intersects a named type exactly if their names are related. -/
theorem intersects_abstract_left (hb : b.name? = some y) :
    h.intersects (.abstract x) b = h.related x y := by
  cases b with
  | top | union => cases hb
  | _ =>
    obtain rfl := Option.some.inj hb
    rw [intersects, related_comm]

/-- A named type intersects an abstract type exactly if their names are related. -/
theorem intersects_abstract_right (ha : a.name? = some x) :
    h.intersects a (.abstract y) = h.related x y := by
  cases a with
  | top | union => cases ha
  | _ =>
    obtain rfl := Option.some.inj ha
    rw [intersects]

/-- Two containers intersect if their names are related and their arguments, where there are equally
many, intersect position by position. -/
theorem intersects_container_iff :
    h.intersects (.container x as) (.container y bs) = true ↔
      h.related x y = true ∧
        (as.length = bs.length → List.Forall₂ (fun a b ↦ h.intersects a b = true) as bs) := by
  simp only [intersects, Bool.and_eq_true, Bool.or_eq_true, bne_iff_ne, ne_eq, ← imp_iff_not_or]
  exact and_congr_right fun _ ↦ forall_congr' fun hl ↦ allPairsIntersect_iff hl

end SsaAdvisor.Hierarchy
