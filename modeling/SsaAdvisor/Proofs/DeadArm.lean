import Mathlib.Data.List.TakeWhile
import Mathlib.Data.Set.Card
import Mathlib.Order.Interval.Finset.Nat
import SsaAdvisor.Func.Defect
import SsaAdvisor.Proofs.ControlFlow
import SsaAdvisor.Proofs.Sweep

/-!
# The dead arm of a decided branch

What is counted as the dead arm are statements behind the branch, none of which a jump leads to, so
control only falls into them from the branch. They are unreachable without the dead arm if that arm
is the one that falls through, or if the branch is itself unreachable. If the dead arm is the jump
of a reachable branch, all of them are reachable: what is counted is the arm that runs.
-/

namespace SsaAdvisor

namespace DecidedBranch

/-- The arm by which control never leaves the branch. -/
def deadArm (d : DecidedBranch) : Arm := if d.jumpIsDead then .jump else .next

/-- All arms but the dead one. -/
def liveArms (d : DecidedBranch) : LiveArms :=
  fun position arm ↦ ¬ (position = d.index ∧ arm = d.deadArm)

variable {d : DecidedBranch} {position : Nat}

instance (d : DecidedBranch) (position : Nat) : DecidablePred (d.liveArms position) :=
  fun arm ↦ inferInstanceAs (Decidable (¬ (position = d.index ∧ arm = d.deadArm)))

private theorem liveArms_next_of_lt (h : d.index < position) : d.liveArms position .next :=
  fun hd ↦ h.ne' hd.1

private theorem liveArms_index_next : d.liveArms d.index .next ↔ d.jumpIsDead = true := by
  cases hj : d.jumpIsDead <;> simp [liveArms, deadArm, hj]

end DecidedBranch

namespace Func

/-- The positions of the body that control does not reach from the first statement. -/
def unreachable (f : Func) (live : LiveArms) : Set Nat :=
  {position | 1 ≤ position ∧ position ≤ f.size ∧ ¬ f.Reaches live 1 position}

variable {f : Func} {ctx : Context} {lookahead branch position : Nat} {d : DecidedBranch}

private theorem finite_unreachable (f : Func) (live : LiveArms) : (f.unreachable live).Finite :=
  (Set.finite_Icc 1 f.size).subset fun _ h ↦ ⟨h.1, h.2.1⟩

/-- The numbered statements that are counted behind a branch. -/
def counted (f : Func) (lookahead branch : Nat) : List (Statement × Nat) :=
  ((f.after branch).take lookahead).takeWhile fun numbered ↦
    !numbered.1.isControlTransfer && !f.joinPoints.contains numbered.2

/-- The count is the number of counted statements. -/
theorem countDead_eq (f : Func) (lookahead branch : Nat) :
    f.countDead lookahead branch = (f.counted lookahead branch).length :=
  rfl

private theorem counted_prefix_after (f : Func) (lookahead branch : Nat) :
    f.counted lookahead branch <+: f.after branch :=
  (List.takeWhile_prefix _).trans (List.take_prefix _ _)

/-- A counted statement defines a value, and no jump leads to it. -/
theorem of_mem_counted {s : Statement} (hm : (s, position) ∈ f.counted lookahead branch) :
    s.producesValue = true ∧ ∀ source, f.leadsTo? source .jump ≠ some position := by
  have hkept := List.mem_takeWhile_imp hm
  simp only [Bool.and_eq_true, Bool.not_eq_true', Statement.isControlTransfer,
    Bool.not_eq_false'] at hkept
  refine ⟨hkept.1, ?_⟩
  intro source hto
  have hs := (mem_after.mp ((counted_prefix_after f lookahead branch).subset hm)).2
  have hjoin := StatementSet.contains_ofList.mpr
    ⟨mem_jumpTargets.mpr ⟨source, hto⟩, bounds_of_statement? hs⟩
  exact Bool.false_ne_true (hkept.2.symm.trans hjoin)

/-- The positions up to the count behind a branch are those of the counted statements. -/
theorem exists_mem_counted (hlt : branch < position)
    (hle : position ≤ branch + f.countDead lookahead branch) :
    ∃ s, f.statement? position = some s ∧ (s, position) ∈ f.counted lookahead branch := by
  rw [countDead_eq] at hle
  have hi : position - branch - 1 < (f.counted lookahead branch).length := by omega
  have hposition : branch + (position - branch - 1) + 1 = position := by omega
  have hget := List.prefix_iff_getElem?.mp (counted_prefix_after f lookahead branch) _ hi
  rw [getElem?_after, hposition, Option.map_eq_some_iff] at hget
  obtain ⟨s, hs, hentry⟩ := hget
  exact ⟨s, hs, hentry ▸ List.getElem_mem hi⟩

/-- Without the dead arm control reaches a counted statement exactly if that arm is the jump and
control reaches the branch. -/
theorem reaches_counted_iff (hd : d ∈ (f.propagate ctx lookahead).decidedBranches)
    (hlt : d.index < position) (hle : position ≤ d.index + d.statementsEliminated) :
    f.Reaches d.liveArms 1 position ↔
      f.Reaches d.liveArms 1 d.index ∧ d.jumpIsDead = true := by
  obtain ⟨condition, fallthroughIsTrue, hs, -, -, hcount⟩ := mem_decidedBranches.mp hd
  rw [hcount] at hle
  -- control falls from the branch into the first counted statement, and from each into the next
  induction position, hlt using Nat.le_induction with
  | base =>
    obtain ⟨_, -, hm⟩ := exists_mem_counted (Nat.lt_succ_self _) hle
    rw [reaches_succ_iff hs rfl (of_mem_counted hm).2, DecidedBranch.liveArms_index_next]
  | succ position hlt ih =>
    obtain ⟨s, hs, hm⟩ := exists_mem_counted hlt (Nat.le_of_succ_le hle)
    obtain ⟨_, -, hm'⟩ := exists_mem_counted (Nat.lt_succ_of_lt hlt) hle
    have hf := Statement.fallsThrough_of_producesValue (of_mem_counted hm).1
    rw [reaches_succ_iff hs hf (of_mem_counted hm').2,
      and_iff_left (DecidedBranch.liveArms_next_of_lt hlt)]
    exact ih (Nat.le_of_succ_le hle)

/-- Without the dead arm each counted statement is unreachable, unless that arm is the jump of a
reachable branch. -/
theorem counted_mem_unreachable_iff (hd : d ∈ (f.propagate ctx lookahead).decidedBranches)
    (hlt : d.index < position) (hle : position ≤ d.index + d.statementsEliminated) :
    position ∈ f.unreachable d.liveArms ↔
      d.jumpIsDead = false ∨ d.index ∈ f.unreachable d.liveArms := by
  obtain ⟨condition, fallthroughIsTrue, hs, -, -, hcount⟩ := mem_decidedBranches.mp hd
  obtain ⟨s, hsp, -⟩ := exists_mem_counted hlt (hcount ▸ hle)
  have hposition := bounds_of_statement? hsp
  have hindex := bounds_of_statement? hs
  simp only [unreachable, Set.mem_ofPred_eq, hposition, hindex, true_and,
    reaches_counted_iff hd hlt hle, not_and_or, Bool.not_eq_true]
  exact or_comm

/-- Once the dead arm of a decided branch is removed, what was counted as that arm is unreachable if
the arm falls through or the branch is unreachable, and then the count does not exceed the number of
unreachable statements. If the arm is the jump of a reachable branch, all counted statements are
reachable. -/
theorem statementsEliminated_le_unreachable
    (hd : d ∈ (f.propagate ctx lookahead).decidedBranches) :
    (∀ position, d.index < position → position ≤ d.index + d.statementsEliminated →
        (position ∈ f.unreachable d.liveArms ↔
          d.jumpIsDead = false ∨ d.index ∈ f.unreachable d.liveArms)) ∧
      (d.jumpIsDead = false ∨ d.index ∈ f.unreachable d.liveArms →
        d.statementsEliminated ≤ (f.unreachable d.liveArms).ncard) := by
  refine ⟨fun _ ↦ counted_mem_unreachable_iff hd, ?_⟩
  intro hdead
  have hsub : ↑(Finset.Ioc d.index (d.index + d.statementsEliminated)) ⊆
      f.unreachable d.liveArms := by
    intro position hp
    obtain ⟨hlt, hle⟩ := Finset.mem_Ioc.mp hp
    exact (counted_mem_unreachable_iff hd hlt hle).mpr hdead
  calc d.statementsEliminated
      = (Finset.Ioc d.index (d.index + d.statementsEliminated)).card := by simp
    _ = (↑(Finset.Ioc d.index (d.index + d.statementsEliminated)) : Set Nat).ncard :=
        (Set.ncard_coe_finset _).symm
    _ ≤ (f.unreachable d.liveArms).ncard := Set.ncard_le_ncard hsub (finite_unreachable f _)

/-- A function that logs only if a flag is set, which it is not. -/
def quietLog : Func where
  name := "quiet"
  parameterTypes := []
  body := #[
    .literal (.bool false) .bool,
    .branch (.value 1) true 5,
    .literal (.str "verbose") .string,
    .call "println" [.value 3] .nothing,
    .ret none]

/-- Both statements that log are unreachable once control no longer falls through the branch. -/
theorem statementsEliminated_le_unreachable_quietLog :
    quietLog.validate = .ok () ∧
      ⟨2, true, 2, false, 5⟩ ∈ (quietLog.propagate .initial 20).decidedBranches ∧
      4 ∈ quietLog.unreachable (DecidedBranch.liveArms ⟨2, true, 2, false, 5⟩) ∧
      2 ≤ (quietLog.unreachable (DecidedBranch.liveArms ⟨2, true, 2, false, 5⟩)).ncard := by
  have hd : ⟨2, true, 2, false, 5⟩ ∈ (quietLog.propagate .initial 20).decidedBranches := by
    decide +kernel
  obtain ⟨hcounted, hcount⟩ := statementsEliminated_le_unreachable hd
  exact ⟨by decide +kernel, hd, (hcounted 4 (by decide) (by decide)).mpr (.inl rfl),
    hcount (.inl rfl)⟩

/-- A function with a branch that never jumps. -/
def settledCheck : Func where
  name := "settled"
  parameterTypes := []
  body := #[
    .literal (.bool true) .bool,
    .branch (.value 1) true 4,
    .call "println" [.const (.str "checked")] .nothing,
    .ret none]

/-- A statement is counted as dead although every statement is reachable without the dead arm: the
branch never jumps, and what is counted is where it falls through. -/
theorem settledCheck_overcounts :
    settledCheck.validate = .ok () ∧
      ⟨2, false, 1, true, 4⟩ ∈ (settledCheck.propagate .initial 20).decidedBranches ∧
      ¬ 1 ≤ (settledCheck.unreachable (DecidedBranch.liveArms ⟨2, false, 1, true, 4⟩)).ncard := by
  have hp : settledCheck.IsPath (DecidedBranch.liveArms ⟨2, false, 1, true, 4⟩) [1, 2, 3, 4] := by
    decide +kernel
  have hempty : settledCheck.unreachable (DecidedBranch.liveArms ⟨2, false, 1, true, 4⟩) = ∅ := by
    apply Set.eq_empty_of_forall_notMem
    rintro position ⟨hge, hle, hn⟩
    have hle : position ≤ 4 := hle
    exact hn (hp.reaches_of_mem (by simp; omega))
  refine ⟨by decide +kernel, by decide +kernel, ?_⟩
  rw [hempty, Set.ncard_empty]
  decide

end Func
end SsaAdvisor
