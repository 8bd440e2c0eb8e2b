import Mathlib.Algebra.Group.Nat.Defs
import Mathlib.Data.List.Infix
import SsaAdvisor.Proofs.Traversal

/-!
# Folds that are checked or capped at every step

A fold over numbers whose intermediate results are checked, each held by a value if it fits. The
check never changes a result: a fold that goes through holds the result of the unchecked fold. It
goes through exactly if the unchecked fold over every front part fits.

A product whose intermediate results are capped instead comes to the capped product: at the cap it
stays with every further factor but zero, and zero wins either way.
-/

namespace SsaAdvisor

variable {α β γ : Type}

/-- A fold whose steps look up their operands first is a fold over what the lookups find. -/
theorem foldlM_bind_eq {look : α → Option β} (step : γ → β → Option γ) (as : List α) (acc : γ) :
    as.foldlM (fun acc a ↦ (look a).bind (step acc)) acc =
      (as.mapM look).bind fun bs ↦ bs.foldlM step acc := by
  induction as generalizing acc with
  | nil => rfl
  | cons a as ih =>
    rw [List.foldlM_cons, List.mapM_cons]
    cases look a with
    | none => rfl
    | some b =>
      simp only [Option.bind_eq_bind, Option.bind_some, ih, Option.pure_def, Option.bind_assoc,
        List.foldlM_cons]
      exact Option.bind_comm _ _

section Checked

variable {check? : β → Option γ} {value : γ → β} (combine : β → α → β)

/-- A fold that goes through holds the result of the unchecked fold. -/
theorem value_of_foldlM (hvalue : ∀ n v, check? n = some v → value v = n) {as : List α}
    {acc total : γ}
    (h : as.foldlM (fun acc a ↦ check? (combine (value acc) a)) acc = some total) :
    value total = as.foldl combine (value acc) := by
  induction as generalizing acc with
  | nil => rw [List.foldl_nil, Option.some.inj h]
  | cons a as ih =>
    rw [List.foldlM_cons, Option.bind_eq_bind, Option.bind_eq_some_iff] at h
    obtain ⟨next, hnext, h⟩ := h
    rw [ih h, List.foldl_cons, hvalue _ _ hnext]

/-- A fold goes through exactly if what it combines fits after every step. -/
theorem isSome_foldlM_iff (hvalue : ∀ n v, check? n = some v → value v = n) (as : List α)
    (acc : γ) :
    (as.foldlM (fun acc a ↦ check? (combine (value acc) a)) acc).isSome = true ↔
      ∀ front, front <+: as → front ≠ [] →
        (check? (front.foldl combine (value acc))).isSome = true := by
  induction as generalizing acc with
  | nil => simp
  | cons a as ih =>
    rw [List.foldlM_cons, Option.bind_eq_bind]
    cases hnext : check? (combine (value acc) a) with
    | none =>
      refine iff_of_false nofun fun hfits ↦ ?_
      have := hfits [a] (List.prefix_append [a] as) (List.cons_ne_nil a [])
      simp [hnext] at this
    | some next =>
      rw [Option.bind_some, ih, hvalue _ _ hnext]
      constructor
      · intro hfits front hfront hne
        rcases List.prefix_cons_iff.mp hfront with rfl | ⟨rest, rfl, hrest⟩
        · exact absurd rfl hne
        · by_cases hnil : rest = []
          · simp [hnil, hnext]
          · exact hfits rest hrest hnil
      · intro hfits front hfront _
        exact hfits (a :: front) (List.cons_prefix_cons.mpr ⟨rfl, hfront⟩)
          (List.cons_ne_nil a front)

end Checked

/-- A capped product stays so with every further factor. -/
theorem min_mul_min (a n limit : Nat) : min (min a limit * n) limit = min (a * n) limit := by
  cases n with
  | zero => rfl
  | succ n =>
    have hle : limit ≤ limit * (n + 1) := Nat.le_mul_of_pos_right limit n.succ_pos
    rw [← Nat.mul_min_mul_right, Nat.min_assoc, Nat.min_eq_right hle]

/-- A product that is capped after each factor is the capped product. -/
theorem foldl_min_mul (sizes : List Nat) {acc limit : Nat} (hacc : acc ≤ limit) :
    sizes.foldl (fun acc size ↦ min (acc * size) limit) acc = min (acc * sizes.prod) limit := by
  induction sizes generalizing acc with
  | nil => simp [hacc]
  | cons size sizes ih =>
    rw [List.foldl_cons, ih (Nat.min_le_right _ _), min_mul_min, List.prod_cons, Nat.mul_assoc]

end SsaAdvisor
