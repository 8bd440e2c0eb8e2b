import SsaAdvisor.Ty.Basic

/-!
# The structural order on types

Types are ordered by kind first (top, concrete, abstract, union, container), then by name, then by
their components, lists lexicographically. The order has no meaning for subtyping: it gives sets of
types one enumeration. Names are ordered by code point. Main statements: types that compare as equal
are equal, which also decides equality, and the comparison is a total order.

Follows the derived order of `Type`.
Spec guidance: `SPEC_FULL.md` §10.1.
-/

namespace SsaAdvisor.Ty

/-- Rank of a type's kind. -/
def rank : Ty → Nat
  | .top => 0
  | .concrete _ => 1
  | .abstract _ => 2
  | .union _ => 3
  | .container _ _ => 4

mutual
/-- Comparison by kind, then name, then components. -/
def order : Ty → Ty → Ordering
  | .concrete a, .concrete b => compare a b
  | .abstract a, .abstract b => compare a b
  | .union as, .union bs => orderAll as bs
  | .container a as, .container b bs => (compare a b).then (orderAll as bs)
  | a, b => compare a.rank b.rank

/-- Lexicographic comparison; a proper initial segment comes first. -/
def orderAll : List Ty → List Ty → Ordering
  | [], [] => .eq
  | [], _ :: _ => .lt
  | _ :: _, [] => .gt
  | a :: as, b :: bs => (order a b).then (orderAll as bs)
end

instance : Ord Ty := ⟨order⟩

mutual
/-- Every type compares as equal to itself. -/
theorem order_self : ∀ a : Ty, order a a = .eq
  | .top => rfl
  | .concrete a => by simp [order]
  | .abstract a => by simp [order]
  | .union as => by simp [order, orderAll_self as]
  | .container a as => by simp [order, orderAll_self as]

/-- Every list of types compares as equal to itself. -/
theorem orderAll_self : ∀ as : List Ty, orderAll as as = .eq
  | [] => rfl
  | a :: as => by simp [orderAll, order_self a, orderAll_self as]
end

mutual
/-- Types that compare as equal are equal. -/
theorem eq_of_order : ∀ a b : Ty, order a b = .eq → a = b
  | .top, b => by cases b <;> simp [order, rank, compare, compareOfLessAndEq]
  | .concrete a, b => by
    cases b <;> simp [order, rank]
  | .abstract a, b => by
    cases b <;> simp [order, rank]
  | .union as, b => by
    cases b with
    | union bs => intro h; rw [eq_of_orderAll as bs h]
    | _ => simp [order, rank]
  | .container a as, b => by
    cases b with
    | container b bs =>
      intro h
      simp only [order, Ordering.then_eq_eq] at h
      rw [eq_of_orderAll as bs h.2]
      simpa using h.1
    | _ => simp [order, rank]

/-- Lists of types that compare as equal are equal. -/
theorem eq_of_orderAll : ∀ as bs : List Ty, orderAll as bs = .eq → as = bs
  | [], [] => by simp
  | [], _ :: _ => by simp [orderAll]
  | _ :: _, [] => by simp [orderAll]
  | a :: as, b :: bs => by
    intro h
    simp only [orderAll, Ordering.then_eq_eq] at h
    rw [eq_of_order a b h.1, eq_of_orderAll as bs h.2]
end

/-- Comparison decides equality of types. -/
theorem order_eq_iff {a b : Ty} : order a b = .eq ↔ a = b :=
  ⟨eq_of_order a b, fun h ↦ h ▸ order_self a⟩

instance : Std.LawfulEqOrd Ty where
  compare_self := order_self _
  eq_of_compare := eq_of_order _ _

instance : DecidableEq Ty := fun _ _ ↦ decidable_of_iff _ order_eq_iff

mutual
/-- Comparison the other way round gives the opposite result. -/
theorem order_swap : ∀ a b : Ty, (order a b).swap = order b a
  | .top, b => by cases b <;> rfl
  | .concrete a, b => by
    cases b with
    | concrete b => exact Std.OrientedOrd.eq_swap.symm
    | _ => rfl
  | .abstract a, b => by
    cases b with
    | abstract b => exact Std.OrientedOrd.eq_swap.symm
    | _ => rfl
  | .union as, b => by
    cases b with
    | union bs => exact orderAll_swap as bs
    | _ => rfl
  | .container a as, b => by
    cases b with
    | container b bs =>
      rw [order, order, Ordering.swap_then, ← Std.OrientedOrd.eq_swap, orderAll_swap as bs]
    | _ => rfl

/-- Comparison of lists the other way round gives the opposite result. -/
theorem orderAll_swap : ∀ as bs : List Ty, (orderAll as bs).swap = orderAll bs as
  | [], [] | [], _ :: _ | _ :: _, [] => rfl
  | a :: as, b :: bs => by
    rw [orderAll, orderAll, Ordering.swap_then, order_swap a b, orderAll_swap as bs]
end

private theorem order_of_rank_ne {a b : Ty} (h : a.rank ≠ b.rank) :
    order a b = compare a.rank b.rank := by
  cases a <;> cases b <;> first | rfl | exact absurd rfl h

private theorem rank_le_of_order {a b : Ty} (h : order a b = .lt) : a.rank ≤ b.rank := by
  by_cases he : a.rank = b.rank
  · exact Nat.le_of_eq he
  · rw [order_of_rank_ne he] at h
    exact Nat.le_of_lt (Nat.compare_eq_lt.mp h)

private theorem order_trans_of_rank_ne {a b c : Ty} (hne : a.rank ≠ b.rank) (hab : order a b = .lt)
    (hbc : order b c = .lt) : order a c = .lt := by
  have hle := rank_le_of_order hab
  have hle' := rank_le_of_order hbc
  have hlt : a.rank < c.rank := by omega
  rw [order_of_rank_ne (Nat.ne_of_lt hlt)]
  exact Nat.compare_eq_lt.mpr hlt

/-- Comparison in two stages is transitive if both stages are and the first one tells different
values apart. -/
theorem then_trans {α β : Type} (first : α → α → Ordering) (second : β → β → Ordering)
    {a b c : α} {a' b' c' : β} (heq : ∀ x y, first x y = .eq ↔ x = y)
    (hfirst : first a b = .lt → first b c = .lt → first a c = .lt)
    (hsecond : second a' b' = .lt → second b' c' = .lt → second a' c' = .lt)
    (hab : (first a b).then (second a' b') = .lt) (hbc : (first b c).then (second b' c') = .lt) :
    (first a c).then (second a' c') = .lt := by
  rw [Ordering.then_eq_lt, heq] at hab hbc ⊢
  rcases hab with hab | ⟨rfl, hab⟩
  · rcases hbc with hbc | ⟨rfl, -⟩
    · exact .inl (hfirst hab hbc)
    · exact .inl hab
  · rcases hbc with hbc | ⟨rfl, hbc⟩
    · exact .inl hbc
    · exact .inr ⟨rfl, hsecond hab hbc⟩

mutual
/-- The order on types is transitive. -/
theorem order_trans : ∀ a b c : Ty, order a b = .lt → order b c = .lt → order a c = .lt
  | .top, b, c => by
    intro hab hbc
    cases b with
    | top => exact (nomatch hab)
    | _ => exact order_trans_of_rank_ne (by simp [rank]) hab hbc
  | .concrete a, b, c => by
    intro hab hbc
    cases b with
    | concrete b =>
      cases c with
      | concrete c =>
        rw [order] at hab hbc ⊢
        exact Std.TransCmp.lt_trans hab hbc
      | _ => exact hbc
    | _ => exact order_trans_of_rank_ne (by simp [rank]) hab hbc
  | .abstract a, b, c => by
    intro hab hbc
    cases b with
    | abstract b =>
      cases c with
      | abstract c =>
        rw [order] at hab hbc ⊢
        exact Std.TransCmp.lt_trans hab hbc
      | _ => exact hbc
    | _ => exact order_trans_of_rank_ne (by simp [rank]) hab hbc
  | .union as, b, c => by
    intro hab hbc
    cases b with
    | union bs =>
      cases c with
      | union cs => exact orderAll_trans as bs cs hab hbc
      | _ => exact hbc
    | _ => exact order_trans_of_rank_ne (by simp [rank]) hab hbc
  | .container a as, b, c => by
    intro hab hbc
    cases b with
    | container b bs =>
      cases c with
      | container c cs =>
        exact then_trans compare orderAll (fun _ _ ↦ Std.LawfulEqOrd.compare_eq_iff_eq)
          Std.TransCmp.lt_trans (orderAll_trans as bs cs) hab hbc
      | _ => exact hbc
    | _ => exact order_trans_of_rank_ne (by simp [rank]) hab hbc

/-- The order on lists of types is transitive. -/
theorem orderAll_trans : ∀ as bs cs : List Ty,
    orderAll as bs = .lt → orderAll bs cs = .lt → orderAll as cs = .lt
  | [], _, _ :: _ => fun _ _ ↦ rfl
  | [], [], [] => by simp [orderAll]
  | [], _ :: _, [] => by simp [orderAll]
  | _ :: _, [], _ => by simp [orderAll]
  | _ :: _, _ :: _, [] => by simp [orderAll]
  | a :: as, b :: bs, c :: cs =>
    then_trans order orderAll (fun _ _ ↦ order_eq_iff) (order_trans a b c)
      (orderAll_trans as bs cs)
end

/-- A lawful comparison is an order if it is oriented and its strict part is transitive. -/
theorem transOrd_of_lt_trans {α : Type} [Ord α] [Std.LawfulEqOrd α]
    (swap : ∀ a b : α, (compare a b).swap = compare b a)
    (trans : ∀ a b c : α, compare a b = .lt → compare b c = .lt → compare a c = .lt) :
    Std.TransOrd α where
  eq_swap := (swap _ _).symm
  isLE_trans {a b c} hab hbc := by
    rw [Ordering.isLE_iff_eq_lt_or_eq_eq, Std.LawfulEqOrd.compare_eq_iff_eq] at hab hbc ⊢
    rcases hab with hab | rfl
    · rcases hbc with hbc | rfl
      · exact .inl (trans a b c hab hbc)
      · exact .inl hab
    · exact hbc

instance : Std.TransOrd Ty := transOrd_of_lt_trans order_swap order_trans

end SsaAdvisor.Ty
