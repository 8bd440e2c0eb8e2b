import SsaAdvisor.Proofs.Dispatch
import SsaAdvisor.Proofs.MayShare

/-!
# Widening a type

A supertype may share what its subtype may share, as long as concrete types are leaves: a name that
one type uses for a leaf and another one for an inner node would be looked up as a node in one test
and compared as a leaf in the other. A second exception are unions that no type is built as: a type
that has only empty unions to choose from meets the top type as a direct member of a union in one
order and not in the other. Main statement: apart from the two, widening a type loses no
intersection, and so widening a receiver loses no candidate; and a subtype without empty unions
intersects its supertypes.
-/

namespace SsaAdvisor.Hierarchy

variable {h : Hierarchy} {leaves : Set String} {a b sup m : Ty} {members : List Ty} {x y : String}

private theorem nonVoid_of_name? {sup : Ty} (ha : a.name? = some x)
    (hs : h.isSubtype a sup = true) :
    NonVoid sup := by
  match sup with
  | .union members =>
    obtain ⟨m, hm, hs⟩ := (isSubtype_union_iff ha).mp hs
    have hlt := Ty.sizeOf_lt_union hm
    exact Ty.isVoid_union_eq_false_iff.mpr ⟨m, hm, nonVoid_of_name? ha hs⟩
  | .top | .concrete _ | .abstract _ | .container _ _ => rfl
termination_by sizeOf sup

private theorem nonVoid_of_isSubtype {a : Ty} (ha : NonVoid a) (hs : h.isSubtype a sup = true) :
    NonVoid sup := by
  match a with
  | .top =>
    rw [eq_top_of_isSubtype hs]
    rfl
  | .union members =>
    obtain ⟨m, hm, hvoid⟩ := Ty.isVoid_union_eq_false_iff.mp ha
    have hlt := Ty.sizeOf_lt_union hm
    exact nonVoid_of_isSubtype hvoid (isSubtype_of_mem hs hm)
  | .concrete _ | .abstract _ | .container _ _ => exact nonVoid_of_name? rfl hs
termination_by sizeOf a

private theorem mayShare_of_named {sup : Ty} (ha : a.name? = some x) (hb : b.name? = some y)
    (hr : h.related x y = true)
    (hconcrete : ∀ z, (Ty.concrete z).Respects leaves → h.isSubtype a (.concrete z) = true →
      h.MayShare NonVoid (.concrete z) b)
    (hcontainer : ∀ z args, (Ty.container z args).Respects leaves →
      h.isSubtype a (.container z args) = true → h.MayShare NonVoid (.container z args) b)
    (hsup : sup.Respects leaves) (hs : h.isSubtype a sup = true) : h.MayShare NonVoid sup b := by
  match sup with
  | .top => exact .topLeft b
  | .union members =>
    obtain ⟨m, hm, hs⟩ := (isSubtype_union_iff ha).mp hs
    have hlt := Ty.sizeOf_lt_union hm
    exact .unionLeft hm (fun _ ↦ Ty.isVoid_eq_false_of_name? hb)
      (mayShare_of_named ha hb hr hconcrete hcontainer (hsup.of_union hm) hs)
  | .abstract z =>
    exact .nodeLeft hb (related_of_related hr (isNamedSubtype_of_isSubtype ha rfl hs))
  | .concrete z => exact hconcrete z hsup hs
  | .container z args => exact hcontainer z args hsup hs
termination_by sizeOf sup

private theorem exists_mem_zip {α : Type} {R : α → α → Prop} {as bs cs : List α}
    (hR : List.Forall₂ R as bs) {b c : α} (hp : (b, c) ∈ bs.zip cs) :
    ∃ a, (a, c) ∈ as.zip cs ∧ R a b := by
  induction hR generalizing cs with
  | nil => simp at hp
  | @cons a _ as _ hab _ ih =>
    cases cs with
    | nil => simp at hp
    | cons c' cs =>
      rw [List.zip_cons_cons, List.mem_cons] at hp
      rcases hp with hp | hp
      · cases hp
        exact ⟨a, List.mem_cons_self, hab⟩
      · obtain ⟨a', hp', hab'⟩ := ih hp
        exact ⟨a', List.mem_cons_of_mem _ hp', hab'⟩

/-- What two types may share, a supertype of the first may share with the second. -/
theorem mayShare_of_isSubtype (hshare : h.MayShare (fun _ ↦ True) a b) (ha : a.Respects leaves)
    (hb : b.Respects leaves) (hdegenerate : a.NoEmptyUnion ∨ b.NoTopMember)
    (hsup : sup.Respects leaves) (hs : h.isSubtype a sup = true) : h.MayShare NonVoid sup b := by
  -- the supertype is found by following the choices that relate the two types
  induction hshare generalizing sup with
  | topLeft b =>
    rw [eq_top_of_isSubtype hs]
    exact .topLeft b
  | topRight a => exact .topRight sup
  | unionLeft hm _ _ ih =>
    exact ih (ha.of_union hm) hb (hdegenerate.imp_left (·.of_union hm)) hsup
      (isSubtype_of_mem hs hm)
  | unionRight hm _ _ ih =>
    refine .unionRight hm ?_
      (ih ha (hb.of_union hm) (hdegenerate.imp_right (·.of_union hm)) hsup hs)
    rintro rfl
    rcases hdegenerate with hfull | htop
    · exact nonVoid_of_isSubtype (Ty.isVoid_eq_false_of_noEmptyUnion hfull) hs
    · exact absurd rfl (htop.ne_top_of_mem hm)
  | @leafLeft x b hn =>
    refine mayShare_of_named rfl hn (related_self h x) ?_ ?_ hsup hs
    · intro z _ hs
      obtain rfl := eq_of_isSubtype_concrete rfl hs
      exact .leafLeft hn
    · intro z args _ hs
      obtain ⟨_, hcontainer, -⟩ := (isSubtype_container_iff rfl).mp hs
      cases hcontainer
  | @leafRight a x hn =>
    refine mayShare_of_named hn rfl (related_self h x) ?_ ?_ hsup hs
    · intro z _ hs
      obtain rfl := eq_of_isSubtype_concrete hn hs
      exact .leafLeft rfl
    · intro z args _ hs
      obtain ⟨as, rfl, -⟩ := (isSubtype_container_iff hn).mp hs
      -- the name of this container would be that of the leaf
      exact absurd rfl (Ty.nodeName?_ne_of_leafName? hb ha rfl)
  | @nodeLeft x y b hn hr =>
    refine mayShare_of_named rfl hn hr ?_ ?_ hsup hs
    · intro z hz hs
      obtain rfl := eq_of_isSubtype_concrete rfl hs
      exact absurd rfl (Ty.nodeName?_ne_of_leafName? hz ha rfl)
    · intro z args _ hs
      obtain ⟨_, hcontainer, -⟩ := (isSubtype_container_iff rfl).mp hs
      cases hcontainer
  | @nodeRight x y a hn hr =>
    refine mayShare_of_named hn rfl hr (fun z _ hs ↦ ?_) (fun z args _ hs ↦ ?_) hsup hs
    all_goals exact .nodeRight rfl (related_of_related hr (isNamedSubtype_of_isSubtype hn rfl hs))
  | @containers x y as bs hr _ ih =>
    refine mayShare_of_named rfl rfl hr ?_ ?_ hsup hs
    · intro z _ hs
      simp [isSubtype] at hs
    · intro z cs hz hs
      obtain ⟨_, hcontainer, hxz, hcs⟩ := (isSubtype_container_iff rfl).mp hs
      cases hcontainer
      refine .containers (related_of_related hr hxz) ?_
      rintro hl ⟨c, b⟩ hp
      rcases hcs with rfl | hcs
      · cases hp
      obtain ⟨a, hp', hac⟩ := exists_mem_zip hcs hp
      obtain ⟨ham, hbm⟩ := List.of_mem_zip hp'
      exact ih (hcs.length_eq.trans hl) (a, b) hp' (ha.of_container ham) (hb.of_container hbm)
        (hdegenerate.imp (·.of_container ham) (·.of_container hbm))
        (hz.of_container (List.of_mem_zip hp).1) hac

private theorem mayShare_of_noEmptyUnion {a b : Ty} (ha : a.NoEmptyUnion)
    (hs : h.isSubtype a b = true) :
    h.MayShare NonVoid a b := by
  match a, b with
  | _, .top => exact .topRight _
  | .top, _ =>
    rw [eq_top_of_isSubtype hs]
    exact .topLeft _
  | .union [], _ => exact absurd rfl ha.self
  | .union (m :: members), b =>
    have hm : m ∈ m :: members := List.mem_cons_self
    have hsm := isSubtype_of_mem hs hm
    have hlt := Ty.sizeOf_lt_union hm
    refine .unionLeft hm ?_ (mayShare_of_noEmptyUnion (ha.of_union hm) hsm)
    rintro rfl
    rw [eq_top_of_isSubtype hsm]
    rfl
  | .concrete _, .union members | .abstract _, .union members | .container _ _, .union members =>
    obtain ⟨m, hm, hs⟩ := (isSubtype_union_iff rfl).mp hs
    have hlt := Ty.sizeOf_lt_union hm
    exact .unionRight hm (fun _ ↦ rfl) (mayShare_of_noEmptyUnion ha hs)
  | .concrete x, .concrete y | .abstract x, .concrete y =>
    obtain rfl := eq_of_isSubtype_concrete rfl hs
    exact .leafRight rfl
  | .concrete x, .abstract y | .abstract x, .abstract y | .container x _, .abstract y =>
    have hxy := isNamedSubtype_of_isSubtype rfl rfl hs
    exact .nodeRight rfl (related_of_isNamedSubtype (isNamedSubtype_self h x) hxy)
  | .container x as, .container y bs =>
    obtain ⟨_, hcontainer, hxy, hbs⟩ := (isSubtype_container_iff rfl).mp hs
    cases hcontainer
    refine .containers (related_of_isNamedSubtype (isNamedSubtype_self h x) hxy) ?_
    rintro hl ⟨m, n⟩ hp
    rcases hbs with rfl | hbs
    · simp at hp
    have hm := (List.of_mem_zip hp).1
    have hlt := Ty.sizeOf_lt_container x hm
    have hlt' := Ty.sizeOf_lt_container y (List.of_mem_zip hp).2
    exact mayShare_of_noEmptyUnion (ha.of_container hm) ((List.forall₂_iff_zip.mp hbs).2 hp)
  | .container _ _, .concrete _ | .concrete _, .container _ _ | .abstract _, .container _ _ =>
    simp [isSubtype] at hs
termination_by sizeOf a + sizeOf b
decreasing_by all_goals omega

/-- What intersects a type in one order intersects its supertypes in both, unless a leaf of one of
the types is an inner node of another or both of the degenerate unions occur. -/
theorem intersects_of_widening (hapart : Ty.LeavesApart [a, sup, b])
    (hdegenerate : a.NoEmptyUnion ∨ b.NoTopMember) (hs : h.isSubtype a sup = true)
    (hi : h.intersects a b = true ∨ h.intersects b a = true) :
    h.intersects sup b = true ∧ h.intersects b sup = true := by
  have hshare : h.MayShare (fun _ ↦ True) a b := by
    rcases hi with hi | hi
    · exact mayShare_of_intersects hi
    · exact (mayShare_of_intersects hi).symm
  have hwide := mayShare_of_isSubtype hshare (hapart.respects (by simp)) (hapart.respects (by simp))
    hdegenerate (hapart.respects (by simp)) hs
  exact ⟨intersects_of_mayShare hwide, intersects_of_mayShare hwide.symm⟩

/-- Widening a type loses no intersection, in either order, if concrete types are leaves and either
the type has no empty union or the other one has no union with the top type as a direct member.
Hence a wider receiver loses no candidate, and a type without empty unions intersects each of its
supertypes. -/
theorem widening_keeps_intersections (h : Hierarchy) :
    (∀ a sup b, Ty.LeavesApart [a, sup, b] → a.NoEmptyUnion ∨ b.NoTopMember →
      h.isSubtype a sup = true → h.intersects a b = true ∨ h.intersects b a = true →
        h.intersects sup b = true ∧ h.intersects b sup = true) ∧
    (∀ (ctx : Context) (callee : String) (receiver sup : Ty) (s : Signature),
      (∀ ty, s.receiver? = some ty →
        Ty.LeavesApart [receiver, sup, ty] ∧ (receiver.NoEmptyUnion ∨ ty.NoTopMember)) →
      h.isSubtype receiver sup = true →
      s ∈ (({ ctx with hierarchy := h } : Context).candidates callee receiver).toList →
        s ∈ (({ ctx with hierarchy := h } : Context).candidates callee sup).toList) ∧
    ∀ a sup, a.NoEmptyUnion → h.isSubtype a sup = true → h.intersects a sup = true := by
  refine ⟨fun _ _ _ ↦ intersects_of_widening, ?_, ?_⟩
  · intro ctx callee receiver sup s hty hs hm
    rw [Context.mem_candidates] at hm ⊢
    obtain ⟨hregistered, ty, hreceiver, hi⟩ := hm
    obtain ⟨hapart, hdegenerate⟩ := hty ty hreceiver
    exact ⟨hregistered, ty, hreceiver,
      (intersects_of_widening hapart hdegenerate hs (.inr hi)).2⟩
  · intro a sup ha hs
    exact intersects_of_mayShare (mayShare_of_noEmptyUnion ha hs)

/-- A vector of integers is also a vector of reals, and an integer that is signed is an integer. -/
theorem widening_keeps_intersections_vector :
    (builtin.intersects (.container "AbstractVector" [.abstract "Real"])
        (.union [.string, .container "Vector" [.abstract "Integer"]]) = true ∧
      builtin.intersects (.union [.string, .container "Vector" [.abstract "Integer"]])
        (.container "AbstractVector" [.abstract "Real"]) = true) ∧
    ⟨"show", [.abstract "Signed"]⟩ ∈
      (({ Func.shows with hierarchy := builtin } : Context).candidates "show"
        (.abstract "Integer")).toList ∧
    builtin.intersects .int (.union [.string, .abstract "Real"]) = true := by
  obtain ⟨hwiden, hcandidates, hsubtype⟩ := widening_keeps_intersections builtin
  refine ⟨?_, ?_, ?_⟩
  · exact hwiden (.container "Vector" [.int]) _ _ (by decide +kernel) (.inl (by decide +kernel))
      (by decide +kernel) (.inl (by decide +kernel))
  · refine hcandidates Func.shows "show" .int _ ⟨"show", [.abstract "Signed"]⟩ ?_
      (by decide +kernel) (by decide +kernel)
    rintro ty ⟨⟩
    exact ⟨by decide +kernel, .inl (by decide +kernel)⟩
  · exact hsubtype _ _ (by decide +kernel) (by decide +kernel)

/-- A box of values of the given type. -/
def box (ty : Ty) : Ty := .container "Box" [ty]

/-- A box with a box of nothing is a box with some box of nothing, and it may be a box with a box of
anything; the latter two do not intersect. -/
theorem widening_loses_boxes :
    let a := box (box (.union []))
    let sup := box (.union [box (.union [])])
    let b := .union [box (box (.union [.top]))]
    Ty.LeavesApart [a, sup, b] ∧ empty.isSubtype a sup = true ∧ empty.intersects a b = true ∧
      empty.intersects sup b = false := by
  decide +kernel

end SsaAdvisor.Hierarchy
