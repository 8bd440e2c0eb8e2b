import Mathlib.Data.Finset.Card
import Mathlib.Data.Finset.Range
import SsaAdvisor.Hierarchy

/-!
# Ancestors of names

The ancestors of a name are what its parent links lead to, one for each number of links. A walk
looks at the first of them. As every name has at most one parent, two ancestors of one name lie on a
single chain, so one of them is an ancestor of the other, also where the chain runs into a cycle. A
chain of more links than there are passes through some name twice, so the bound of the walk cuts
nothing off: a name is below another one exactly if any number of links leads to it.
-/

namespace SsaAdvisor.Hierarchy

variable {h : Hierarchy} {name parent a b : String}

/-- The name to which this many parent links lead. -/
def ancestor? (h : Hierarchy) : Nat → String → Option String
  | 0, name => some name
  | links + 1, name => (h.parent? name).bind (h.ancestor? links)

private theorem ancestor?_add (h : Hierarchy) (i j : Nat) (name : String) :
    h.ancestor? (i + j) name = (h.ancestor? i name).bind (h.ancestor? j) := by
  induction i generalizing name with
  | zero => rw [Nat.zero_add, ancestor?, Option.bind_some]
  | succ i ih =>
    rw [Nat.succ_add, ancestor?, ancestor?, Option.bind_assoc]
    exact congrArg _ (funext ih)

/-- A walk meets the ancestors that fewer links lead to than it visits names. -/
theorem meets_iff {visits : Nat} :
    h.meets a visits name = true ↔ ∃ i < visits, h.ancestor? i name = some a := by
  induction visits generalizing name with
  | zero => simp [meets]
  | succ visits ih =>
    rw [meets, Bool.or_eq_true, beq_iff_eq]
    constructor
    · rintro (rfl | hp)
      · exact ⟨0, Nat.succ_pos _, rfl⟩
      · split at hp
        · next parent he =>
          obtain ⟨i, hi, ha⟩ := ih.mp hp
          exact ⟨i + 1, Nat.succ_lt_succ hi, by rw [ancestor?, he, Option.bind_some, ha]⟩
        · simp at hp
    · rintro ⟨i, hi, ha⟩
      cases i with
      | zero => exact .inl (Option.some.inj ha)
      | succ i =>
        obtain ⟨parent, he, ha⟩ := Option.bind_eq_some_iff.mp ha
        rw [he]
        exact .inr (ih.mpr ⟨i, Nat.lt_of_succ_lt_succ hi, ha⟩)

/-- A name is below those of its ancestors that no more links lead to than there are. -/
theorem isNamedSubtype_iff :
    h.isNamedSubtype name a = true ↔ ∃ i ≤ h.parents.size, h.ancestor? i name = some a := by
  simp only [isNamedSubtype, meets_iff, Nat.lt_succ_iff]

/-- Every name is below itself. -/
theorem isNamedSubtype_self (h : Hierarchy) (name : String) : h.isNamedSubtype name name = true :=
  isNamedSubtype_iff.mpr ⟨0, Nat.zero_le _, rfl⟩

private theorem isNamedSubtype_of_le {i j : Nat} (hij : i ≤ j) (hj : j ≤ h.parents.size)
    (ha : h.ancestor? i name = some a) (hb : h.ancestor? j name = some b) :
    h.isNamedSubtype a b = true := by
  rw [← Nat.add_sub_cancel' hij, ancestor?_add, ha, Option.bind_some] at hb
  exact isNamedSubtype_iff.mpr ⟨j - i, by omega, hb⟩

private theorem isNamedSubtype_or (ha : h.isNamedSubtype name a = true)
    (hb : h.isNamedSubtype name b = true) :
    h.isNamedSubtype a b = true ∨ h.isNamedSubtype b a = true := by
  obtain ⟨i, hi, hia⟩ := isNamedSubtype_iff.mp ha
  obtain ⟨j, hj, hjb⟩ := isNamedSubtype_iff.mp hb
  rcases Nat.le_total i j with hij | hji
  · exact .inl (isNamedSubtype_of_le hij hj hia hjb)
  · exact .inr (isNamedSubtype_of_le hji hi hjb hia)

/-- Two names above a third one are related. -/
theorem related_of_isNamedSubtype (ha : h.isNamedSubtype name a = true)
    (hb : h.isNamedSubtype name b = true) : h.related a b = true := by
  rcases isNamedSubtype_or ha hb with hab | hba
  · simp [related, hab]
  · simp [related, hba]

/-- The names that have a parent. -/
def children (h : Hierarchy) : Finset String := (h.parents.entries.map (·.1)).toFinset

private theorem card_children_le (h : Hierarchy) : h.children.card ≤ h.parents.size := by
  rw [NameMap.size, ← List.length_map]
  exact List.toFinset_card_le _

private theorem mem_children (ha : h.parent? name = some a) : name ∈ h.children := by
  obtain ⟨before, behind, hentries, -⟩ := List.lookup_eq_some_iff.mp ha
  rw [children, hentries]
  simp

private theorem exists_ancestor?_of_lt {i j : Nat} (hij : i < j)
    (ha : h.ancestor? j name = some a) :
    ∃ b ∈ h.children, h.ancestor? i name = some b := by
  rw [← Nat.add_sub_cancel' (Nat.le_of_lt hij), ancestor?_add] at ha
  obtain ⟨b, hb, ha⟩ := Option.bind_eq_some_iff.mp ha
  obtain ⟨k, hk⟩ : ∃ k, j - i = k + 1 := ⟨j - i - 1, by omega⟩
  rw [hk, ancestor?] at ha
  obtain ⟨parent, hparent, -⟩ := Option.bind_eq_some_iff.mp ha
  exact ⟨b, mem_children hparent, hb⟩

/-- More links than there are names with a parent lead through some name twice. -/
theorem exists_ancestor?_eq {i : Nat} (hi : h.children.card < i)
    (ha : h.ancestor? i name = some a) :
    ∃ j k, j < k ∧ k ≤ h.children.card ∧ h.ancestor? j name = h.ancestor? k name := by
  have hcard : (h.children.image some).card < (Finset.range (h.children.card + 1)).card := by
    rw [Finset.card_range]
    exact Nat.lt_succ_of_le Finset.card_image_le
  have hmaps : Set.MapsTo (h.ancestor? · name) (Finset.range (h.children.card + 1))
      (h.children.image some) := by
    intro j hj
    have hlt : j < i := Nat.lt_of_lt_of_le (Finset.mem_range.mp hj) hi
    obtain ⟨b, hb, hjb⟩ := exists_ancestor?_of_lt hlt ha
    exact Finset.mem_image.mpr ⟨b, hb, hjb.symm⟩
  obtain ⟨j, hj, k, hk, hne, heq⟩ := Finset.exists_ne_map_eq_of_card_lt_of_maps_to hcard hmaps
  rw [Finset.mem_range, Nat.lt_succ_iff] at hj hk
  rcases Nat.lt_or_gt_of_ne hne with hlt | hlt
  · exact ⟨j, k, hlt, hk, heq⟩
  · exact ⟨k, j, hlt, hj, heq.symm⟩

private theorem exists_le_ancestor? {i : Nat} (ha : h.ancestor? i name = some a) :
    ∃ j ≤ h.children.card, h.ancestor? j name = some a := by
  induction i using Nat.strong_induction_on with
  | _ i ih =>
    by_cases hi : i ≤ h.children.card
    · exact ⟨i, hi, ha⟩
    obtain ⟨j, k, hjk, hk, heq⟩ := exists_ancestor?_eq (Nat.lt_of_not_le hi) ha
    -- leaving out the links between the two visits leads to the same name
    apply ih (j + (i - k)) (by omega)
    rw [ancestor?_add, heq, ← ancestor?_add, Nat.add_sub_cancel' (by omega), ha]

/-- A walk that visits more names than have a parent meets every ancestor. -/
theorem meets_iff_exists {visits : Nat} (hvisits : h.children.card < visits) :
    h.meets a visits name = true ↔ ∃ i, h.ancestor? i name = some a := by
  rw [meets_iff]
  constructor
  · rintro ⟨i, -, ha⟩
    exact ⟨i, ha⟩
  · rintro ⟨i, ha⟩
    obtain ⟨j, hj, ha⟩ := exists_le_ancestor? ha
    exact ⟨j, Nat.lt_of_le_of_lt hj hvisits, ha⟩

/-- A name is below another one exactly if some number of links leads to it. -/
theorem isNamedSubtype_iff_exists :
    h.isNamedSubtype name a = true ↔ ∃ i, h.ancestor? i name = some a :=
  meets_iff_exists (Nat.lt_succ_of_le h.card_children_le)

/-- What is above an ancestor is above the name. -/
theorem isNamedSubtype_trans (ha : h.isNamedSubtype name a = true)
    (hb : h.isNamedSubtype a b = true) : h.isNamedSubtype name b = true := by
  obtain ⟨i, hi⟩ := isNamedSubtype_iff_exists.mp ha
  obtain ⟨j, hj⟩ := isNamedSubtype_iff_exists.mp hb
  exact isNamedSubtype_iff_exists.mpr ⟨i + j, by rw [ancestor?_add, hi, Option.bind_some, hj]⟩

/-- The parent of a name is known. -/
theorem knows_of_parent? (hp : h.parent? name = some parent) : h.knows parent = true := by
  obtain ⟨before, behind, hentries, -⟩ := List.lookup_eq_some_iff.mp hp
  simp [knows, NameMap.anyValue, hentries]

/-- An unknown name has no parent. -/
theorem parent?_of_unknown (hu : h.knows name = false) : h.parent? name = none := by
  rw [knows, Bool.or_eq_false_iff] at hu
  exact Option.isNone_iff_eq_none.mp (Option.isSome_eq_false_iff.mp hu.1)

private theorem eq_of_isNamedSubtype_of_unknown (hu : h.knows name = false)
    (ha : h.isNamedSubtype name a = true) : name = a := by
  obtain ⟨i, hi⟩ := isNamedSubtype_iff_exists.mp ha
  cases i with
  | zero => exact Option.some.inj hi
  | succ i => simp [ancestor?, parent?_of_unknown hu] at hi

/-- Two names are related if one of them is unknown or below the other one. -/
theorem related_iff : h.related a b = true ↔ h.knows a = false ∨ h.knows b = false ∨
    h.isNamedSubtype a b = true ∨ h.isNamedSubtype b a = true := by
  simp only [related, Bool.or_eq_true, beq_iff_eq, Bool.not_eq_true', or_assoc]
  constructor
  · rintro (rfl | hr)
    · exact .inr (.inr (.inl (isNamedSubtype_self h a)))
    · exact hr
  · exact .inr

/-- Every name is related to itself. -/
theorem related_self (h : Hierarchy) (name : String) : h.related name name = true := by
  simp [related]

/-- Names are related in either order. -/
theorem related_comm (h : Hierarchy) (a b : String) : h.related a b = h.related b a := by
  rw [Bool.eq_iff_iff, related_iff, related_iff]
  tauto

/-- What is above a name is related to all that the name is related to. -/
theorem related_of_related (hr : h.related name b = true) (ha : h.isNamedSubtype name a = true) :
    h.related a b = true := by
  rcases related_iff.mp hr with hu | hu | hb | hb
  · rwa [← eq_of_isNamedSubtype_of_unknown hu ha]
  · exact related_iff.mpr (.inr (.inl hu))
  · exact related_of_isNamedSubtype ha hb
  · exact related_iff.mpr (.inr (.inr (.inr (isNamedSubtype_trans hb ha))))

end SsaAdvisor.Hierarchy
