import Mathlib.Data.List.Forall2
import Mathlib.Data.List.ReduceOption

/-!
# Traversals

Maps over a list whose function may have no result or fail. A traversal has a result exactly if each
of its steps has one, and the result is that of the steps in order.
-/

namespace SsaAdvisor

variable {α β ε : Type}

/-- What is related to a list member by member has a member for each of the list. -/
theorem exists_mem_of_forall₂ {R : α → β → Prop} {as : List α} {bs : List β} {a : α}
    (h : List.Forall₂ R as bs) (ha : a ∈ as) : ∃ b ∈ bs, R a b := by
  induction h with
  | nil => cases ha
  | @cons a' b as bs hab _ ih =>
    rcases List.mem_cons.mp ha with rfl | ha
    · exact ⟨b, List.mem_cons_self, hab⟩
    · obtain ⟨b', hb', hr⟩ := ih ha
      exact ⟨b', List.mem_cons_of_mem b hb', hr⟩

/-- A traversal with another function has the same result, if that function agrees with the first
one wherever it has a value. -/
theorem mapM_mono {g k : α → Option β} {as : List α} {bs : List β}
    (hgk : ∀ a ∈ as, ∀ b, g a = some b → k a = some b) (h : as.mapM g = some bs) :
    as.mapM k = some bs := by
  induction as generalizing bs with
  | nil => exact h
  | cons a as ih =>
    simp only [List.mapM_cons, Option.bind_eq_bind, Option.bind_eq_some_iff, Option.pure_def,
      Option.some.injEq] at h ⊢
    obtain ⟨b, hb, rest, hrest, hbs⟩ := h
    exact ⟨b, hgk a List.mem_cons_self b hb, rest,
      ih (fun a' ha' ↦ hgk a' (List.mem_cons_of_mem a ha')) hrest, hbs⟩

/-- A traversal has the results of its steps in order. -/
theorem mapM_eq_some_iff {k : α → Option β} {as : List α} {bs : List β} :
    as.mapM k = some bs ↔ List.Forall₂ (fun a b ↦ k a = some b) as bs := by
  induction as generalizing bs with
  | nil => simp [eq_comm]
  | cons a as ih =>
    rw [List.mapM_cons, List.forall₂_cons_left_iff]
    simp only [← ih, Option.bind_eq_bind, Option.bind_eq_some_iff, Option.pure_def,
      Option.some.injEq]
    constructor
    · rintro ⟨b, hb, rest, hrest, rfl⟩
      exact ⟨b, rest, hb, hrest, rfl⟩
    · rintro ⟨b, rest, hb, hrest, rfl⟩
      exact ⟨b, hb, rest, hrest, rfl⟩

private theorem mapM_eq_ok_iff {k : α → Except ε β} {as : List α} {bs : List β} :
    as.mapM k = .ok bs ↔ List.Forall₂ (fun a b ↦ k a = .ok b) as bs := by
  induction as generalizing bs with
  | nil => simp [pure, Except.pure, eq_comm]
  | cons a as ih =>
    rw [List.mapM_cons, List.forall₂_cons_left_iff]
    simp only [← ih]
    cases k a with
    | error e => simp [bind, Except.bind]
    | ok b =>
      cases as.mapM k with
      | error e => simp [bind, Except.bind]
      | ok rest => simp [bind, Except.bind, pure, Except.pure, eq_comm]

/-- A traversal succeeds if all its steps do. -/
theorem exists_mapM_eq_ok {k : α → Except ε β} {as : List α}
    (h : ∀ a ∈ as, ∃ b, k a = .ok b) : ∃ bs, as.mapM k = .ok bs := by
  simp only [mapM_eq_ok_iff]
  induction as with
  | nil => exact ⟨[], .nil⟩
  | cons a as ih =>
    obtain ⟨b, hb⟩ := h a List.mem_cons_self
    obtain ⟨bs, hbs⟩ := ih fun a' ha' ↦ h a' (List.mem_cons_of_mem a ha')
    exact ⟨b :: bs, .cons hb hbs⟩

/-- A traversal whose steps change what those of another one result in succeeds if the other one
does, with its results changed likewise. -/
theorem mapM_eq_ok_map {k k' : α → Except ε β} {as : List α} {bs : List β} (g : β → β)
    (hk : ∀ a, k' a = (k a).map g) (h : as.mapM k = .ok bs) : as.mapM k' = .ok (bs.map g) := by
  rw [mapM_eq_ok_iff] at h ⊢
  rw [List.forall₂_map_right_iff]
  refine h.imp ?_
  intro a b hab
  rw [hk, hab, Except.map]

/-- A traversal that at some steps finds nothing, and at the others what another one finds, succeeds
if the other one does, and finds part of the same in the same order. -/
theorem exists_mapM_sublist {k : α → Except ε (Option β)} {as : List α} {found : List (Option β)}
    (h : as.mapM k = .ok found) (k' : α → Except ε (Option β))
    (hk : ∀ a ∈ as, k' a = .ok none ∨ k' a = k a) :
    ∃ found', as.mapM k' = .ok found' ∧ found'.reduceOption.Sublist found.reduceOption := by
  simp only [mapM_eq_ok_iff] at h ⊢
  induction h with
  | nil => exact ⟨[], .nil, List.Sublist.refl _⟩
  | @cons a b as found hab _ ih =>
    obtain ⟨found', hfound', hsub⟩ := ih fun a' ha' ↦ hk a' (List.mem_cons_of_mem a ha')
    rcases hk a List.mem_cons_self with hnone | hsame
    · refine ⟨none :: found', .cons hnone hfound', ?_⟩
      rw [List.reduceOption_cons_of_none]
      exact hsub.trans ((List.sublist_cons_self b found).filterMap id)
    · refine ⟨b :: found', .cons (hsame.trans hab) hfound', ?_⟩
      cases b with
      | none => exact hsub
      | some b => exact hsub.cons_cons b

/-- What a traversal finds is what its steps find, in order. -/
theorem reduceOption_of_mapM_eq_ok {k : α → Except ε (Option β)} {as : List α}
    {found : List (Option β)} (h : as.mapM k = .ok found) :
    found.reduceOption = as.filterMap fun a ↦ (k a).toOption.join := by
  rw [mapM_eq_ok_iff] at h
  induction h with
  | nil => rfl
  | @cons a b as found hab _ ih =>
    cases b with
    | none => rw [List.reduceOption_cons_of_none, ih, List.filterMap_cons_none (by rw [hab]; rfl)]
    | some b => rw [List.reduceOption_cons_of_some, ih, List.filterMap_cons_some (by rw [hab]; rfl)]

/-- What a traversal finds it finds in one of its steps. -/
theorem exists_of_mem_mapM {k : α → Except ε β} {as : List α} {bs : List β} {b : β}
    (h : as.mapM k = .ok bs) (hb : b ∈ bs) : ∃ a ∈ as, k a = .ok b :=
  exists_mem_of_forall₂ (mapM_eq_ok_iff.mp h).flip hb

end SsaAdvisor
