/-!
# Finite sets as sorted lists

A set of ordered elements is kept as its strictly increasing list, so that equal sets are equal
lists and enumeration is in ascending order. Main statement: where the comparison is a total order,
the set of a list depends on nothing but which elements the list has.
-/

namespace SsaAdvisor

/-- A finite set, listed in ascending order. -/
structure SortedSet (α : Type) where
  toList : List α
deriving DecidableEq

namespace SortedSet

variable {α : Type}

/-- The set without elements. -/
def empty : SortedSet α := ⟨[]⟩

/-- Whether the set has no element. -/
def isEmpty (s : SortedSet α) : Bool := s.toList.isEmpty

/-- Number of elements. -/
def size (s : SortedSet α) : Nat := s.toList.length

/-- Place an element in an ascending list, once. -/
def place [Ord α] (x : α) : List α → List α
  | [] => [x]
  | y :: ys =>
    match compare x y with
    | .lt => x :: y :: ys
    | .eq => y :: ys
    | .gt => y :: place x ys

/-- Add an element; adding a present one changes nothing. -/
def insert [Ord α] (s : SortedSet α) (x : α) : SortedSet α := ⟨place x s.toList⟩

/-- The set of a list's elements. -/
def ofList [Ord α] (xs : List α) : SortedSet α := xs.foldl insert empty

/-- Placing an element adds it to those of the list. -/
theorem mem_place [Ord α] [Std.LawfulEqOrd α] {x z : α} {ys : List α} :
    z ∈ place x ys ↔ z = x ∨ z ∈ ys := by
  induction ys with
  | nil => simp [place]
  | cons y ys ih =>
    unfold place
    split
    · rw [List.mem_cons]
    · next he =>
      rw [Std.LawfulEqOrd.eq_of_compare he, List.mem_cons]
      exact ⟨Or.inr, fun h ↦ h.elim Or.inl id⟩
    · rw [List.mem_cons, ih, List.mem_cons]
      exact or_left_comm

/-- The elements after an insertion are the former ones and the new one. -/
theorem mem_insert [Ord α] [Std.LawfulEqOrd α] {s : SortedSet α} {x z : α} :
    z ∈ (s.insert x).toList ↔ z = x ∨ z ∈ s.toList :=
  mem_place

private theorem mem_foldl_insert [Ord α] [Std.LawfulEqOrd α] {xs : List α} {s : SortedSet α}
    {z : α} : z ∈ (xs.foldl insert s).toList ↔ z ∈ s.toList ∨ z ∈ xs := by
  induction xs generalizing s with
  | nil => simp
  | cons x xs ih =>
    rw [List.foldl_cons, ih, mem_insert, List.mem_cons, or_assoc, or_left_comm]

/-- The elements of the set of a list are those of the list. -/
theorem mem_ofList [Ord α] [Std.LawfulEqOrd α] {xs : List α} {z : α} :
    z ∈ (ofList xs).toList ↔ z ∈ xs := by
  rw [ofList, mem_foldl_insert]
  simp [empty]

/-- The set has no element exactly when its list is empty. -/
theorem isEmpty_eq_true_iff {s : SortedSet α} : s.isEmpty = true ↔ s.toList = [] := by
  simp [isEmpty]

/-- A strictly ascending list has no element twice. -/
theorem nodup_of_pairwise [Ord α] [Std.LawfulEqOrd α] {xs : List α}
    (h : xs.Pairwise (compare · · = .lt)) : xs.Nodup := by
  refine h.imp ?_
  rintro x _ hlt rfl
  simp at hlt

section Ascending

variable [Ord α] [Std.TransOrd α] [Std.LawfulEqOrd α]

private theorem pairwise_place {x : α} {ys : List α} (h : ys.Pairwise (compare · · = .lt)) :
    (place x ys).Pairwise (compare · · = .lt) := by
  induction ys with
  | nil => exact List.pairwise_singleton _ _
  | cons y ys ih =>
    obtain ⟨hy, hys⟩ := List.pairwise_cons.mp h
    unfold place
    split
    · next hlt =>
      refine List.pairwise_cons.mpr ⟨?_, h⟩
      intro z hz
      rcases List.mem_cons.mp hz with rfl | hz
      · exact hlt
      · exact Std.TransCmp.lt_trans hlt (hy z hz)
    · exact h
    · next hgt =>
      refine List.pairwise_cons.mpr ⟨?_, ih hys⟩
      intro z hz
      rcases mem_place.mp hz with rfl | hz
      · exact Std.OrientedCmp.gt_iff_lt.mp hgt
      · exact hy z hz

private theorem pairwise_foldl_insert {xs : List α} {s : SortedSet α}
    (h : s.toList.Pairwise (compare · · = .lt)) :
    (xs.foldl insert s).toList.Pairwise (compare · · = .lt) := by
  induction xs generalizing s with
  | nil => exact h
  | cons x xs ih => exact ih (pairwise_place h)

/-- The set of a list's elements is strictly ascending. -/
theorem pairwise_ofList (xs : List α) : (ofList xs).toList.Pairwise (compare · · = .lt) :=
  pairwise_foldl_insert .nil

/-- Strictly ascending lists with the same elements are equal. -/
theorem eq_of_pairwise {xs ys : List α} (hxs : xs.Pairwise (compare · · = .lt))
    (hys : ys.Pairwise (compare · · = .lt)) (h : ∀ x, x ∈ xs ↔ x ∈ ys) : xs = ys := by
  have hasymm : ∀ x y : α, x ∈ xs → y ∈ ys → compare x y = .lt → compare y x = .lt → x = y :=
    fun x y _ _ hxy hyx ↦ absurd hyx (Std.OrientedCmp.not_lt_of_lt hxy)
  have hperm := (List.perm_ext_iff_of_nodup (nodup_of_pairwise hxs) (nodup_of_pairwise hys)).mpr h
  exact hperm.eq_of_pairwise hasymm hxs hys

/-- Lists with the same elements have the same set, whatever their order and repetitions. -/
theorem ofList_congr {xs ys : List α} (h : ∀ x, x ∈ xs ↔ x ∈ ys) : ofList xs = ofList ys := by
  have hmem : ∀ x, x ∈ (ofList xs).toList ↔ x ∈ (ofList ys).toList := by
    intro x
    rw [mem_ofList, mem_ofList, h]
  exact congrArg mk (eq_of_pairwise (pairwise_ofList xs) (pairwise_ofList ys) hmem)

/-- The set of a strictly ascending list is listed as the list. -/
theorem toList_ofList {xs : List α} (h : xs.Pairwise (compare · · = .lt)) :
    (ofList xs).toList = xs :=
  eq_of_pairwise (pairwise_ofList xs) h fun _ ↦ mem_ofList

end Ascending

end SortedSet
end SsaAdvisor
