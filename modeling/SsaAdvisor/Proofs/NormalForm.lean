import SsaAdvisor.Proofs.Distribution
import SsaAdvisor.Ty.Union

/-!
# The normal form of unions

A normalized union has at least two members, none of them the top type or a union, in strictly
ascending order. The types that are built from names, containers and the union of types are those
all of whose unions are normalized, so opening one level of member unions leaves none, and the
members of the union are determined by what there is to choose from. Main statement: of such types
the union is normalized, is the same for every order and repetition of them, may be taken in parts,
and relates to other types as they do together.
-/

namespace SsaAdvisor

namespace Ty

/-- Whether the type is a union. -/
def isUnion : Ty → Bool
  | .union _ => true
  | _ => false

/-- Whether the types are listed as in a normalized union. -/
structure NormalMembers (members : List Ty) : Prop where
  two_le_length : 2 ≤ members.length
  ascending : members.Pairwise (compare · · = .lt)
  ne_top : ∀ m ∈ members, m ≠ .top
  isUnion_eq_false : ∀ m ∈ members, m.isUnion = false

/-- Whether every union in the type is normalized. -/
def Normal : Ty → Prop :=
  Throughout fun part ↦ ∀ members, part = .union members → NormalMembers members

/-- The types that are built from names, containers and unions in normal form. -/
inductive Built : Ty → Prop
  | top : Built .top
  | concrete (name : String) : Built (.concrete name)
  | abstract (name : String) : Built (.abstract name)
  | container (name : String) {args : List Ty} (hargs : ∀ arg ∈ args, Built arg) :
    Built (.container name args)
  | unionOf {tys : List Ty} (htys : ∀ ty ∈ tys, Built ty) : Built (Ty.unionOf tys)

variable {ty m t : Ty} {tys xs ys : List Ty} {name : String} {h : Hierarchy}

private theorem members_of_isUnion_eq_false (hu : ty.isUnion = false) : ty.members = [ty] := by
  cases ty with
  | union => cases hu
  | _ => rfl

namespace Normal

private theorem members_ne_nil (hn : ty.Normal) : ty.members ≠ [] := by
  cases ty with
  | union inner =>
    have hlength := (hn.self inner rfl).two_le_length
    rintro (rfl : inner = [])
    simp at hlength
  | _ => exact List.cons_ne_nil _ _

private theorem of_members (hn : ty.Normal) (hm : m ∈ ty.members) : m.Normal := by
  cases ty with
  | union inner => exact hn.of_union hm
  | _ =>
    obtain rfl := List.mem_singleton.mp hm
    exact hn

private theorem isUnion_eq_false (hn : ty.Normal) (hm : m ∈ ty.members) : m.isUnion = false := by
  cases ty with
  | union inner => exact (hn.self inner rfl).isUnion_eq_false m hm
  | _ =>
    obtain rfl := List.mem_singleton.mp hm
    rfl

private theorem eq_top (hn : ty.Normal) (hm : .top ∈ ty.members) : ty = .top := by
  cases ty with
  | union inner => exact absurd rfl ((hn.self inner rfl).ne_top _ hm)
  | _ => exact (List.mem_singleton.mp hm).symm

end Normal

private theorem intersects_iff_members (hne : ty.members ≠ []) :
    h.intersects ty t = true ↔ ∃ m ∈ ty.members, h.intersects m t = true := by
  cases ty with
  | union inner => exact Hierarchy.intersects_union_iff hne
  | _ => simp [members]

private theorem isSubtype_iff_members :
    h.isSubtype ty t = true ↔ ∀ m ∈ ty.members, h.isSubtype m t = true := by
  cases ty with
  | union inner => exact Hierarchy.isSubtype_union_left_iff
  | _ => simp [members]

section Normal

variable (hn : ∀ ty ∈ tys, ty.Normal)

include hn

private theorem isUnion_eq_false_of_mem_choices (hm : m ∈ choices tys) : m.isUnion = false := by
  obtain ⟨ty, hty, hm⟩ := mem_choices.mp hm
  exact (hn ty hty).isUnion_eq_false hm

private theorem top_not_mem_choices (htop : .top ∉ tys) : .top ∉ choices tys := by
  intro hm
  obtain ⟨ty, hty, hm⟩ := mem_choices.mp hm
  exact htop ((hn ty hty).eq_top hm ▸ hty)

private theorem choices_ne_nil (hne : tys ≠ []) : choices tys ≠ [] := by
  obtain ⟨ty, hty⟩ := List.exists_mem_of_ne_nil tys hne
  obtain ⟨m, hm⟩ := List.exists_mem_of_ne_nil _ (hn ty hty).members_ne_nil
  exact List.ne_nil_of_mem (mem_choices.mpr ⟨ty, hty, hm⟩)

private theorem members_unionOf (htop : .top ∉ tys) (hne : tys ≠ []) :
    (unionOf tys).members = choices tys := by
  rw [unionOf_eq htop]
  split
  · next hnil => exact absurd hnil (choices_ne_nil hn hne)
  · next ty hsingle =>
    rw [hsingle]
    refine members_of_isUnion_eq_false (isUnion_eq_false_of_mem_choices hn ?_)
    rw [hsingle]
    exact List.mem_singleton_self ty
  · rfl

/-- The union of normalized types is normalized. -/
theorem normal_unionOf : (unionOf tys).Normal := by
  by_cases htop : .top ∈ tys
  · rw [unionOf_eq_top_of_mem htop]
    exact .leaf rfl fun _ ↦ nofun
  have hnormal : ∀ m ∈ choices tys, m.Normal := by
    intro m hm
    obtain ⟨ty, hty, hm⟩ := mem_choices.mp hm
    exact (hn ty hty).of_members hm
  rw [unionOf_eq htop]
  split
  · exact .leaf rfl fun _ ↦ nofun
  · next ty hsingle => exact hnormal ty (hsingle ▸ List.mem_singleton_self ty)
  · next hnil hsingle =>
    refine .union ?_ hnormal
    rintro _ ⟨⟩
    refine ⟨?_, SortedSet.pairwise_ofList _, ?_, fun _ ↦ isUnion_eq_false_of_mem_choices hn⟩
    · match hchoices : choices tys with
      | [] => exact absurd hchoices hnil
      | [ty] => exact absurd hchoices (hsingle ty)
      | _ :: _ :: rest => simp
    · rintro _ hm rfl
      exact top_not_mem_choices hn htop hm

/-- The union intersects what one of the types intersects, and no more. -/
theorem intersects_unionOf_iff (hne : tys ≠ []) :
    h.intersects (unionOf tys) t = true ↔ ∃ ty ∈ tys, h.intersects ty t = true := by
  by_cases htop : .top ∈ tys
  · rw [unionOf_eq_top_of_mem htop]
    exact ⟨fun hi ↦ ⟨_, htop, hi⟩, fun _ ↦ by simp [Hierarchy.intersects]⟩
  · rw [intersects_iff_members (normal_unionOf hn).members_ne_nil, members_unionOf hn htop hne]
    simp only [mem_choices]
    constructor
    · rintro ⟨m, ⟨ty, hty, hm⟩, hi⟩
      exact ⟨ty, hty, (intersects_iff_members (hn ty hty).members_ne_nil).mpr ⟨m, hm, hi⟩⟩
    · rintro ⟨ty, hty, hi⟩
      obtain ⟨m, hm, hi⟩ := (intersects_iff_members (hn ty hty).members_ne_nil).mp hi
      exact ⟨m, ⟨ty, hty, hm⟩, hi⟩

/-- The union is a subtype exactly if the types are. -/
theorem isSubtype_unionOf_iff (hne : tys ≠ []) :
    h.isSubtype (unionOf tys) t = true ↔ ∀ ty ∈ tys, h.isSubtype ty t = true := by
  by_cases htop : .top ∈ tys
  · rw [unionOf_eq_top_of_mem htop]
    refine ⟨?_, fun hall ↦ hall _ htop⟩
    intro hs ty _
    rw [Hierarchy.eq_top_of_isSubtype hs]
    simp [Hierarchy.isSubtype]
  · rw [isSubtype_iff_members, members_unionOf hn htop hne]
    simp only [mem_choices]
    constructor
    · intro hall ty hty
      exact isSubtype_iff_members.mpr fun m hm ↦ hall m ⟨ty, hty, hm⟩
    · rintro hall m ⟨ty, hty, hm⟩
      exact isSubtype_iff_members.mp (hall ty hty) m hm

private theorem unionOf_append_unionOf (hne : tys ≠ []) (xs zs : List Ty) :
    unionOf (xs ++ [unionOf tys] ++ zs) = unionOf (xs ++ tys ++ zs) := by
  by_cases htop : .top ∈ tys
  · rw [unionOf_eq_top_of_mem htop, unionOf_eq_top_of_mem (by simp),
      unionOf_eq_top_of_mem (by simp [htop])]
  have hmembers := members_unionOf hn htop hne
  have hunion : .top ≠ unionOf tys := by
    intro heq
    rw [← heq] at hmembers
    exact top_not_mem_choices hn htop (hmembers ▸ List.mem_singleton_self _)
  apply unionOf_congr
  · simp [htop, hunion]
  · intro m
    have hm : m ∈ (unionOf tys).members ↔ ∃ ty ∈ tys, m ∈ ty.members := by
      rw [hmembers, mem_choices]
    simp only [mem_choices, List.mem_append, List.mem_singleton, or_and_right, exists_or,
      exists_eq_left, hm]

end Normal

private theorem unionOf_of_normal {members : List Ty} (hn : (Ty.union members).Normal) :
    unionOf members = .union members := by
  obtain ⟨hlength, hascending, htop, hunion⟩ := hn.self members rfl
  have hflat : members.flatMap Ty.members = members := by
    have hmembers : ∀ m ∈ members, m.members = [m] :=
      fun m hm ↦ members_of_isUnion_eq_false (hunion m hm)
    rw [List.flatMap_congr hmembers, List.flatMap_singleton']
  have hchoices : choices members = members := by
    rw [choices, hflat, SortedSet.toList_ofList hascending]
  rw [unionOf_eq fun hm ↦ htop _ hm rfl, hchoices]
  rcases members with _ | ⟨first, _ | ⟨second, rest⟩⟩
  · simp at hlength
  · simp at hlength
  · rfl

/-- The types that are built are normalized. -/
theorem Built.normal (hb : ty.Built) : ty.Normal := by
  induction hb with
  | top | concrete | abstract => exact .leaf rfl fun _ ↦ nofun
  | container _ _ ih => exact .container (fun _ ↦ nofun) ih
  | unionOf _ ih => exact normal_unionOf ih

/-- Normalized types are built: each union as the union of its members. -/
theorem Normal.built {ty : Ty} (hn : ty.Normal) : ty.Built := by
  match ty with
  | .top => exact .top
  | .concrete name => exact .concrete name
  | .abstract name => exact .abstract name
  | .union members =>
    rw [← unionOf_of_normal hn]
    refine .unionOf fun m hm ↦ ?_
    have hlt := sizeOf_lt_union hm
    exact Normal.built (hn.of_union hm)
  | .container name args =>
    refine .container name fun arg harg ↦ ?_
    have hlt := sizeOf_lt_container name harg
    exact Normal.built (hn.of_container harg)
termination_by sizeOf ty

/-- The types that are built are those in which every union is normalized. -/
theorem built_iff_normal : ty.Built ↔ ty.Normal := ⟨Built.normal, Normal.built⟩

/-- The union of types that are built is normalized, and the same for every order and repetition of
the types. If there are any, they may be given as their union, and the union intersects what one of
them intersects and is a subtype of what all of them are subtypes of. -/
theorem unionOf_normalizes (hb : ∀ ty ∈ tys, ty.Built) :
    (unionOf tys).Normal ∧
    (∀ tys', (∀ ty, ty ∈ tys' ↔ ty ∈ tys) → unionOf tys' = unionOf tys) ∧
    (tys ≠ [] →
      (∀ xs zs, unionOf (xs ++ [unionOf tys] ++ zs) = unionOf (xs ++ tys ++ zs)) ∧
      ∀ (h : Hierarchy) (t : Ty),
        (h.intersects (unionOf tys) t = true ↔ ∃ ty ∈ tys, h.intersects ty t = true) ∧
        (h.isSubtype (unionOf tys) t = true ↔ ∀ ty ∈ tys, h.isSubtype ty t = true)) := by
  have hn : ∀ ty ∈ tys, ty.Normal := fun ty hty ↦ (hb ty hty).normal
  refine ⟨normal_unionOf hn, fun _ ↦ unionOf_congr_mem, ?_⟩
  intro hne
  exact ⟨unionOf_append_unionOf hn hne,
    fun _ _ ↦ ⟨intersects_unionOf_iff hn hne, isSubtype_unionOf_iff hn hne⟩⟩

/-- Texts, vectors of numbers, and numbers again, the latter two as unions. -/
def mixed : List Ty :=
  [unionOf [.string, .container "Vector" [unionOf [.int, .float]]], .abstract "Real",
    unionOf [.abstract "Real", .string, .int]]

/-- The union of texts, vectors and numbers has four members, however often and in which order they
are given, and intersects the integers. -/
theorem unionOf_normalizes_mixed :
    (∀ ty ∈ mixed, ty.Built) ∧ mixed ≠ [] ∧
      unionOf mixed = .union [.int, .string, .abstract "Real",
        .container "Vector" [.union [.float, .int]]] ∧
      (unionOf mixed).Normal ∧ unionOf (mixed ++ mixed).reverse = unionOf mixed ∧
      unionOf ([.bool] ++ [unionOf mixed] ++ [.int]) = unionOf ([.bool] ++ mixed ++ [.int]) ∧
      Hierarchy.builtin.intersects (unionOf mixed) (.abstract "Signed") = true ∧
      Hierarchy.builtin.isSubtype (unionOf mixed)
        (.union [.abstract "AbstractArray", .abstract "Number", .string]) = true := by
  have hb : ∀ ty ∈ mixed, ty.Built := by
    have hvector : (Ty.container "Vector" [unionOf [.int, .float]]).Built := by
      refine .container _ fun arg harg ↦ ?_
      obtain rfl := List.mem_singleton.mp harg
      exact .unionOf (by simp [int, float, Built.concrete])
    simp only [mixed, List.forall_mem_cons]
    refine ⟨.unionOf ?_, .abstract _, .unionOf ?_, by simp⟩
    · simp [string, Built.concrete, hvector]
    · simp [string, int, Built.concrete, Built.abstract]
  obtain ⟨hnormal, hcongr, hrest⟩ := unionOf_normalizes hb
  obtain ⟨hsplice, hrelates⟩ := hrest (by simp [mixed])
  obtain ⟨-, hsubtype⟩ := hrelates .builtin
    (.union [.abstract "AbstractArray", .abstract "Number", .string])
  refine ⟨hb, by simp [mixed], by decide +kernel, hnormal, hcongr _ (by simp), hsplice _ _, ?_, ?_⟩
  · exact (hrelates .builtin (.abstract "Signed")).1.mpr (by decide +kernel)
  · exact hsubtype.mpr (by decide +kernel)

end Ty
end SsaAdvisor
