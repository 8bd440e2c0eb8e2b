import Mathlib.Data.List.Zip
import SsaAdvisor.Proofs.Parts
import SsaAdvisor.Proofs.Shape

/-!
# What types may share

The test for intersection opens the unions of both types in an order that depends on which type
stands first. Behind it is a relation that does not: two types may share a value if members of their
unions can be chosen that do. The order shows in one place only: a direct member that is the top
type meets a union with nothing to choose from if it is found before that union is opened. So the
types that such a member meets are a parameter of the relation. If these are all types, types that
intersect are related; if they are those that have something to choose from, related types
intersect.
-/

namespace SsaAdvisor.Hierarchy

/-- Whether two types may share a value, by a choice of members of their unions; the top type can be
chosen as a member only against the types that count. -/
inductive MayShare (h : Hierarchy) (counts : Ty → Prop) : Ty → Ty → Prop
  | topLeft (b : Ty) : MayShare h counts .top b
  | topRight (a : Ty) : MayShare h counts a .top
  | unionLeft {members : List Ty} {m b : Ty} (hm : m ∈ members) (htop : m = .top → counts b)
    (hs : MayShare h counts m b) : MayShare h counts (.union members) b
  | unionRight {a m : Ty} {members : List Ty} (hm : m ∈ members) (htop : m = .top → counts a)
    (hs : MayShare h counts a m) : MayShare h counts a (.union members)
  | leafLeft {x : String} {b : Ty} (hb : b.name? = some x) : MayShare h counts (.concrete x) b
  | leafRight {a : Ty} {x : String} (ha : a.name? = some x) : MayShare h counts a (.concrete x)
  | nodeLeft {x y : String} {b : Ty} (hb : b.name? = some y) (hr : h.related x y = true) :
    MayShare h counts (.abstract x) b
  | nodeRight {x y : String} {a : Ty} (ha : a.name? = some x) (hr : h.related x y = true) :
    MayShare h counts a (.abstract y)
  | containers {x y : String} {as bs : List Ty} (hr : h.related x y = true)
    (hargs : as.length = bs.length → ∀ pair ∈ as.zip bs, MayShare h counts pair.1 pair.2) :
    MayShare h counts (.container x as) (.container y bs)

/-- Whether the type has something to choose from. -/
def NonVoid (ty : Ty) : Prop := ty.isVoid = false

variable {h : Hierarchy} {counts : Ty → Prop} {a b : Ty} {members : List Ty}

namespace MayShare

/-- What two types may share does not depend on their order. -/
theorem symm (hs : h.MayShare counts a b) : h.MayShare counts b a := by
  induction hs with
  | topLeft b => exact .topRight b
  | topRight a => exact .topLeft a
  | unionLeft hm htop _ ih => exact .unionRight hm htop ih
  | unionRight hm htop _ ih => exact .unionLeft hm htop ih
  | leafLeft hb => exact .leafRight hb
  | leafRight ha => exact .leafLeft ha
  | nodeLeft hb hr => exact .nodeRight hb (related_comm h _ _ ▸ hr)
  | nodeRight ha hr => exact .nodeLeft ha (related_comm h _ _ ▸ hr)
  | @containers x y as bs hr _ ih =>
    refine .containers (related_comm h _ _ ▸ hr) ?_
    intro hl pair hp
    rw [← List.zip_swap, List.mem_map] at hp
    obtain ⟨pair', hp', rfl⟩ := hp
    exact ih hl.symm pair' hp'

private theorem exists_mem_of_union (hb : b ≠ .top) (hs : h.MayShare NonVoid (.union members) b) :
    ∃ m ∈ members, h.MayShare NonVoid m b := by
  generalize ha : Ty.union members = a at hs
  induction hs with
  | topLeft => cases ha
  | topRight => exact absurd rfl hb
  | unionLeft hm _ hs =>
    obtain rfl := Ty.union.inj ha
    exact ⟨_, hm, hs⟩
  | @unionRight a m members' hm htop _ ih =>
    subst ha
    by_cases hne : m = .top
    -- the top type was chosen against the union, so the union has a member to choose
    · subst hne
      obtain ⟨m, hm', hvoid⟩ := Ty.isVoid_union_eq_false_iff.mp (htop rfl)
      exact ⟨m, hm', .unionRight hm (fun _ ↦ hvoid) (.topRight m)⟩
    · obtain ⟨m', hm', hs⟩ := ih hne rfl
      exact ⟨m', hm', .unionRight hm (fun he ↦ absurd he hne) hs⟩
  | leafLeft | nodeLeft | containers => cases ha
  | leafRight hn | nodeRight hn =>
    subst ha
    cases hn

private theorem related_of_abstract {x y : String} (hx : a.name? = some x)
    (hs : h.MayShare counts a (.abstract y)) : h.related x y = true := by
  cases hs with
  | topLeft | unionLeft => cases hx
  | leafLeft hn =>
    obtain rfl := Option.some.inj hx
    obtain rfl := Option.some.inj hn
    exact related_self h _
  | nodeLeft hn hr =>
    obtain rfl := Option.some.inj hx
    obtain rfl := Option.some.inj hn
    exact hr
  | nodeRight hn hr =>
    obtain rfl := Option.some.inj (hx.symm.trans hn)
    exact hr

end MayShare

/-- Types that intersect may share a value. -/
theorem mayShare_of_intersects {a b : Ty} (hi : h.intersects a b = true) :
    h.MayShare (fun _ ↦ True) a b := by
  match a, b with
  | .top, _ => exact .topLeft _
  | .union _, .top | .concrete _, .top | .abstract _, .top | .container _ _, .top =>
    exact .topRight _
  | .union members, .union _ | .union members, .concrete _ | .union members, .abstract _
  | .union members, .container _ _ =>
    obtain ⟨m, hm, hi⟩ := (intersects_union_left_iff (by simp)).mp hi
    have hlt := Ty.sizeOf_lt_union hm
    exact .unionLeft hm (fun _ ↦ trivial) (mayShare_of_intersects hi)
  | .concrete _, .union members | .abstract _, .union members | .container _ _, .union members =>
    obtain ⟨m, hm, hi⟩ := (intersects_union_right_iff rfl).mp hi
    have hlt := Ty.sizeOf_lt_union hm
    exact .unionRight hm (fun _ ↦ trivial) (mayShare_of_intersects hi).symm
  | .concrete x, .concrete y =>
    rw [intersects, beq_iff_eq] at hi
    exact .leafLeft (congrArg some hi.symm)
  | .concrete x, .container y _ =>
    rw [intersects, beq_iff_eq] at hi
    exact .leafLeft (congrArg some hi)
  | .container x _, .concrete y =>
    rw [intersects, beq_iff_eq] at hi
    exact .leafRight (congrArg some hi)
  | .concrete x, .abstract y | .container x _, .abstract y | .abstract x, .abstract y =>
    rw [intersects_abstract_right rfl] at hi
    exact .nodeRight rfl hi
  | .abstract x, .concrete y | .abstract x, .container y _ =>
    rw [intersects_abstract_left rfl] at hi
    exact .nodeLeft rfl hi
  | .container x as, .container y bs =>
    obtain ⟨hr, hargs⟩ := intersects_container_iff.mp hi
    refine .containers hr ?_
    intro hl pair hp
    have hlt := Ty.sizeOf_lt_container x (List.of_mem_zip hp).1
    have hlt' := Ty.sizeOf_lt_container y (List.of_mem_zip hp).2
    exact mayShare_of_intersects ((List.forall₂_iff_zip.mp (hargs hl)).2 hp)
termination_by sizeOf a + sizeOf b
decreasing_by all_goals omega

/-- Types that may share a value intersect, if only types with something to choose from share one
with the top type as a direct member of a union. -/
theorem intersects_of_mayShare {a b : Ty} (hs : h.MayShare NonVoid a b) :
    h.intersects a b = true := by
  match a, b with
  | .top, _ | .union _, .top | .concrete _, .top | .abstract _, .top | .container _ _, .top =>
    simp [intersects]
  | .union members, .union _ | .union members, .concrete _ | .union members, .abstract _
  | .union members, .container _ _ =>
    obtain ⟨m, hm, hs⟩ := hs.exists_mem_of_union (by simp)
    have hlt := Ty.sizeOf_lt_union hm
    exact intersects_union_left hm (intersects_of_mayShare hs)
  | .concrete _, .union members | .abstract _, .union members | .container _ _, .union members =>
    obtain ⟨m, hm, hs⟩ := hs.symm.exists_mem_of_union (by simp)
    have hlt := Ty.sizeOf_lt_union hm
    exact (intersects_union_right_iff rfl).mpr ⟨m, hm, intersects_of_mayShare hs⟩
  | .concrete x, .concrete y =>
    cases hs <;> simp_all [intersects, Ty.name?]
  | .concrete x, .container y _ =>
    cases hs with
    | leafLeft hn => simpa [intersects] using Option.some.inj hn
  | .container x _, .concrete y =>
    cases hs with
    | leafRight hn => simpa [intersects] using Option.some.inj hn
  | .concrete x, .abstract y | .container x _, .abstract y | .abstract x, .abstract y =>
    rw [intersects_abstract_right rfl]
    exact hs.related_of_abstract rfl
  | .abstract x, .concrete y | .abstract x, .container y _ =>
    rw [intersects_abstract_left rfl, related_comm]
    exact hs.symm.related_of_abstract rfl
  | .container x as, .container y bs =>
    cases hs with
    | containers hr hargs =>
      apply intersects_container_iff.mpr
      refine ⟨hr, ?_⟩
      intro hl
      refine List.forall₂_iff_zip.mpr ⟨hl, ?_⟩
      intro m n hp
      have hlt := Ty.sizeOf_lt_container x (List.of_mem_zip hp).1
      have hlt' := Ty.sizeOf_lt_container y (List.of_mem_zip hp).2
      exact intersects_of_mayShare (hargs hl (m, n) hp)
termination_by sizeOf a + sizeOf b
decreasing_by all_goals omega

end SsaAdvisor.Hierarchy
