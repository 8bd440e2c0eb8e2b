import SsaAdvisor.Proofs.Shape

/-!
# Types with a common subtype

A concrete type is a leaf or a container, so what it is a subtype of is told by the shape of the
supertype: a union has such a member, a leaf is the type itself, a named type is above the name, a
container fits argument by argument. Main statement: if a concrete type is a subtype of two types,
the two intersect.
-/

namespace SsaAdvisor.Hierarchy

variable {h : Hierarchy} {c : Ty}

/-- A concrete type has a name. -/
theorem exists_name?_of_isConcrete (hc : c.isConcrete = true) : ∃ x, c.name? = some x := by
  cases c with
  | concrete a => exact ⟨a, rfl⟩
  | container a as => exact ⟨a, rfl⟩
  | _ => simp [Ty.isConcrete] at hc

private theorem isSubtype_concrete_iff (hc : c.isConcrete = true) {b : String} :
    h.isSubtype c (.concrete b) = true ↔ c = .concrete b := by
  cases c with
  | concrete a => simp [isSubtype]
  | container a as => simp [isSubtype]
  | _ => simp [Ty.isConcrete] at hc

/-- Named types above one concrete type have related names. -/
theorem related_of_isSubtype (hc : c.isConcrete = true) {a b : Ty} {x y : String}
    (hx : a.name? = some x) (hy : b.name? = some y) (ha : h.isSubtype c a = true)
    (hb : h.isSubtype c b = true) : h.related x y = true := by
  obtain ⟨n, hn⟩ := exists_name?_of_isConcrete hc
  exact related_of_isNamedSubtype (isNamedSubtype_of_isSubtype hn hx ha)
    (isNamedSubtype_of_isSubtype hn hy hb)

/-- Two types with a common concrete subtype intersect. -/
theorem intersects_of_isSubtype {c a b : Ty} (hc : c.isConcrete = true)
    (ha : h.isSubtype c a = true) (hb : h.isSubtype c b = true) : h.intersects a b = true := by
  obtain ⟨n, hn⟩ := exists_name?_of_isConcrete hc
  match a, b with
  | .top, _ => simp [intersects]
  | .union members, _ =>
    obtain ⟨m, hm, hcm⟩ := (isSubtype_union_iff hn).mp ha
    have hlt := Ty.sizeOf_lt_union hm
    exact intersects_union_left hm (intersects_of_isSubtype hc hcm hb)
  | .concrete _, .top | .abstract _, .top | .container _ _, .top => simp
  | .concrete _, .union members | .abstract _, .union members | .container _ _, .union members =>
    obtain ⟨m, hm, hcm⟩ := (isSubtype_union_iff hn).mp hb
    have hlt := Ty.sizeOf_lt_union hm
    exact (intersects_union_right_iff rfl).mpr ⟨m, hm, intersects_of_isSubtype hc hcm ha⟩
  | .concrete x, .concrete y =>
    obtain rfl := (isSubtype_concrete_iff hc).mp ha
    simpa [isSubtype, intersects] using hb
  | .concrete x, .container y args =>
    obtain rfl := (isSubtype_concrete_iff hc).mp ha
    simp [isSubtype] at hb
  | .container x args, .concrete y =>
    obtain rfl := (isSubtype_concrete_iff hc).mp hb
    simp [isSubtype] at ha
  | .concrete x, .abstract y | .abstract x, .abstract y | .container x _, .abstract y =>
    rw [intersects]
    exact related_of_isSubtype hc rfl rfl ha hb
  | .abstract x, .concrete y | .abstract x, .container y _ =>
    rw [intersects]
    exact related_of_isSubtype hc rfl rfl hb ha
  | .container x as, .container y bs =>
    apply intersects_container_iff.mpr
    refine ⟨related_of_isSubtype hc rfl rfl ha hb, ?_⟩
    intro hl
    obtain ⟨cs, rfl, -, has⟩ := (isSubtype_container_iff hn).mp ha
    obtain ⟨_, hcs, -, hbs⟩ := (isSubtype_container_iff hn).mp hb
    obtain rfl := (Ty.container.inj hcs).2
    rw [Ty.isConcrete, Ty.allConcrete_eq, List.all_eq_true] at hc
    rcases has with rfl | has
    · obtain rfl := List.length_eq_zero_iff.mp hl.symm
      exact .nil
    rcases hbs with rfl | hbs
    · obtain rfl := List.length_eq_zero_iff.mp hl
      exact .nil
    apply forall₂_of_common has hbs
    intro c hcm a ham b hbm hca hcb
    have hlta := Ty.sizeOf_lt_container x ham
    have hltb := Ty.sizeOf_lt_container y hbm
    exact intersects_of_isSubtype (hc c hcm) hca hcb
termination_by sizeOf a + sizeOf b
decreasing_by all_goals omega

end SsaAdvisor.Hierarchy
