import Mathlib.Algebra.BigOperators.Group.Finset.Basic
import SsaAdvisor.Proofs.DeadArm
import SsaAdvisor.Proofs.Meaning

/-!
# The total of dead statements

Every decided branch is counted by itself. No statement is counted twice all the same: a count stops
in front of the next control transfer, so in front of the next decided branch. What is counted are
statements that define a value and to which no branch or jump leads, so the total does not exceed
the number of these. Nothing of this needs a body that is well formed. The total is added up in a
word, and is exact for every body whose size fits one.
-/

namespace SsaAdvisor

namespace Propagation

private theorem toNat_foldl_add (branches : List DecidedBranch) (total : UInt64) :
    (branches.foldl (fun total d ↦ total + .ofNat d.statementsEliminated) total).toNat =
      (total.toNat + (branches.map (·.statementsEliminated)).sum) % UInt64.size := by
  induction branches generalizing total with
  | nil => exact (Nat.mod_eq_of_lt total.toNat_lt).symm
  | cons d branches ih =>
    rw [List.foldl_cons, ih, UInt64.toNat_add, UInt64.toNat_ofNat', List.map_cons, List.sum_cons]
    simp only [UInt64.size]
    omega

/-- The total in a word is the total of the counts up to multiples of the word's size. -/
theorem toNat_deadStatements (p : Propagation) :
    p.deadStatements.toNat =
      (p.decidedBranches.map (·.statementsEliminated)).sum % UInt64.size := by
  rw [deadStatements, toNat_foldl_add, UInt64.toNat_zero, Nat.zero_add]

end Propagation

/-- The positions that are counted behind the branch. -/
def DecidedBranch.positions (d : DecidedBranch) : Finset Nat :=
  Finset.Ioc d.index (d.index + d.statementsEliminated)

private theorem DecidedBranch.card_positions (d : DecidedBranch) :
    d.positions.card = d.statementsEliminated := by
  rw [positions, Nat.card_Ioc, Nat.add_sub_cancel_left]

namespace Func

/-- The positions of the statements that define a value and to which no branch or jump leads. -/
def unjoined (f : Func) : Finset Nat :=
  {position ∈ Finset.Icc 1 f.size |
    (f.statement? position).any Statement.producesValue = true ∧ position ∉ f.jumpTargets}

variable {f : Func} {ctx : Context} {lookahead position : Nat} {d d' : DecidedBranch}

private theorem card_unjoined_le (f : Func) : f.unjoined.card ≤ f.size :=
  (Finset.card_filter_le _ _).trans (Nat.card_Icc 1 f.size).le

private theorem mem_unjoined :
    position ∈ f.unjoined ↔
      (∃ s, f.statement? position = some s ∧ s.producesValue = true) ∧
        position ∉ f.jumpTargets := by
  rw [unjoined, Finset.mem_filter, Option.any_eq_true, Finset.mem_Icc]
  constructor
  · rintro ⟨-, h⟩
    exact h
  · rintro ⟨⟨s, hs, hv⟩, htarget⟩
    exact ⟨bounds_of_statement? hs, ⟨s, hs, hv⟩, htarget⟩

private theorem mem_unjoined_of_counted {branch : Nat} (hlt : branch < position)
    (hle : position ≤ branch + f.countDead lookahead branch) : position ∈ f.unjoined := by
  obtain ⟨s, hs, hm⟩ := exists_mem_counted hlt hle
  obtain ⟨hvalue, hjump⟩ := of_mem_counted hm
  apply mem_unjoined.mpr
  refine ⟨⟨s, hs, hvalue⟩, ?_⟩
  intro htarget
  obtain ⟨source, hto⟩ := mem_jumpTargets.mp htarget
  exact hjump source hto

private theorem positions_subset_unjoined (hd : d ∈ (f.propagate ctx lookahead).decidedBranches) :
    d.positions ⊆ f.unjoined := by
  obtain ⟨_, _, -, -, -, hcount⟩ := mem_decidedBranches.mp hd
  intro position hp
  obtain ⟨hlt, hle⟩ := Finset.mem_Ioc.mp hp
  apply mem_unjoined_of_counted hlt
  rwa [hcount] at hle

private theorem index_not_mem_unjoined (hd : d ∈ (f.propagate ctx lookahead).decidedBranches) :
    d.index ∉ f.unjoined := by
  obtain ⟨_, _, hs, -⟩ := mem_decidedBranches.mp hd
  intro hm
  obtain ⟨⟨s, hs', hvalue⟩, -⟩ := mem_unjoined.mp hm
  obtain rfl := Option.some.inj (hs.symm.trans hs')
  exact Bool.false_ne_true hvalue

private theorem add_statementsEliminated_lt (hd : d ∈ (f.propagate ctx lookahead).decidedBranches)
    (hd' : d' ∈ (f.propagate ctx lookahead).decidedBranches) (hlt : d.index < d'.index) :
    d.index + d.statementsEliminated < d'.index := by
  by_contra hle
  apply index_not_mem_unjoined hd'
  apply positions_subset_unjoined hd
  exact Finset.mem_Ioc.mpr ⟨hlt, by omega⟩

private theorem disjoint_positions_of_lt (hd : d ∈ (f.propagate ctx lookahead).decidedBranches)
    (hd' : d' ∈ (f.propagate ctx lookahead).decidedBranches) (hlt : d.index < d'.index) :
    Disjoint d.positions d'.positions := by
  have hstop := add_statementsEliminated_lt hd hd' hlt
  apply Finset.disjoint_left.mpr
  intro position hp hp'
  have hle := (Finset.mem_Ioc.mp hp).2
  have hlt' := (Finset.mem_Ioc.mp hp').1
  omega

/-- No position is counted behind two decided branches. -/
theorem disjoint_positions (hd : d ∈ (f.propagate ctx lookahead).decidedBranches)
    (hd' : d' ∈ (f.propagate ctx lookahead).decidedBranches) (hne : d ≠ d') :
    Disjoint d.positions d'.positions := by
  rcases Nat.lt_trichotomy d.index d'.index with hlt | heq | hgt
  · exact disjoint_positions_of_lt hd hd' hlt
  · exact absurd (eq_of_mem_decidedBranches hd hd' heq) hne
  · exact (disjoint_positions_of_lt hd' hd hgt).symm

private theorem nodup_decidedBranches (f : Func) (ctx : Context) (lookahead : Nat) :
    (f.propagate ctx lookahead).decidedBranches.Nodup := by
  apply (f.pairwise_decidedBranches ctx lookahead).imp
  rintro d d' hlt rfl
  exact Nat.lt_irrefl _ hlt

/-- All counts together are the number of positions that are counted behind some branch. -/
theorem sum_statementsEliminated_eq_card (f : Func) (ctx : Context) (lookahead : Nat) :
    ((f.propagate ctx lookahead).decidedBranches.map (·.statementsEliminated)).sum =
      ((f.propagate ctx lookahead).decidedBranches.toFinset.biUnion
        DecidedBranch.positions).card := by
  have hdisjoint : ((f.propagate ctx lookahead).decidedBranches.toFinset : Set
      DecidedBranch).PairwiseDisjoint DecidedBranch.positions := by
    intro d hd d' hd' hne
    rw [Finset.mem_coe, List.mem_toFinset] at hd hd'
    exact disjoint_positions hd hd' hne
  calc ((f.propagate ctx lookahead).decidedBranches.map (·.statementsEliminated)).sum
      = ((f.propagate ctx lookahead).decidedBranches.map (·.positions.card)).sum := by
        simp only [DecidedBranch.card_positions]
    _ = ∑ d ∈ (f.propagate ctx lookahead).decidedBranches.toFinset, d.positions.card :=
        (List.sum_toFinset _ (f.nodup_decidedBranches ctx lookahead)).symm
    _ = ((f.propagate ctx lookahead).decidedBranches.toFinset.biUnion
          DecidedBranch.positions).card := (Finset.card_biUnion hdisjoint).symm

private theorem add_statementsEliminated_le_size
    (hd : d ∈ (f.propagate ctx lookahead).decidedBranches) :
    d.index + d.statementsEliminated ≤ f.size := by
  by_cases hzero : d.statementsEliminated = 0
  · obtain ⟨_, _, hs, -⟩ := mem_decidedBranches.mp hd
    have hsize := (bounds_of_statement? hs).2
    omega
  · have hlast : d.index + d.statementsEliminated ∈ d.positions :=
      Finset.mem_Ioc.mpr ⟨by omega, le_rfl⟩
    obtain ⟨⟨s, hs, -⟩, -⟩ := mem_unjoined.mp (positions_subset_unjoined hd hlast)
    exact (bounds_of_statement? hs).2

/-- All counts together do not exceed the number of statements that define a value and are no
target. -/
theorem sum_statementsEliminated_le (f : Func) (ctx : Context) (lookahead : Nat) :
    ((f.propagate ctx lookahead).decidedBranches.map (·.statementsEliminated)).sum ≤
      f.unjoined.card := by
  rw [f.sum_statementsEliminated_eq_card ctx lookahead]
  apply Finset.card_le_card
  apply Finset.biUnion_subset.mpr
  intro d hd
  exact positions_subset_unjoined (List.mem_toFinset.mp hd)

/-- No statement is counted as dead twice. What is counted behind a decided branch lies within the
body, defines values and is no target of a branch or jump; what is counted behind any two decided
branches is disjoint. So all counts together are the number of positions counted, and do not exceed
the number of statements that define a value and are no target. Neither does the total, which is
kept in a word and is exact for every body that a word can number. -/
theorem deadStatements_counts_once (f : Func) (ctx : Context) (lookahead : Nat) :
    let p := f.propagate ctx lookahead
    p.decidedBranches.Pairwise (fun d d' ↦ d ≠ d' ∧ Disjoint d.positions d'.positions) ∧
      (∀ d ∈ p.decidedBranches, d.index + d.statementsEliminated ≤ f.size ∧
        ∀ position ∈ d.positions,
          (∃ s, f.statement? position = some s ∧ s.producesValue = true) ∧
            position ∉ f.jumpTargets) ∧
      (p.decidedBranches.map (·.statementsEliminated)).sum =
        (p.decidedBranches.toFinset.biUnion DecidedBranch.positions).card ∧
      (p.decidedBranches.map (·.statementsEliminated)).sum ≤ f.unjoined.card ∧
      p.deadStatements.toNat ≤ f.unjoined.card ∧
      (f.size < UInt64.size →
        p.deadStatements.toNat = (p.decidedBranches.map (·.statementsEliminated)).sum) := by
  intro p
  have hle := f.sum_statementsEliminated_le ctx lookahead
  refine ⟨?_, ?_, f.sum_statementsEliminated_eq_card ctx lookahead, hle, ?_, fun hsize ↦ ?_⟩
  · apply (f.pairwise_decidedBranches ctx lookahead).imp_of_mem
    intro d d' hd hd' hlt
    exact ⟨fun heq ↦ Nat.lt_irrefl _ (heq ▸ hlt), disjoint_positions_of_lt hd hd' hlt⟩
  · intro d hd
    refine ⟨add_statementsEliminated_le_size hd, ?_⟩
    intro position hp
    exact mem_unjoined.mp (positions_subset_unjoined hd hp)
  · rw [p.toNat_deadStatements]
    exact (Nat.mod_le _ _).trans hle
  · rw [p.toNat_deadStatements]
    exact Nat.mod_eq_of_lt ((hle.trans f.card_unjoined_le).trans_lt hsize)

/-- A function with two checks, one behind the other, of a flag that is not set. -/
def quietChecks : Func where
  name := "quiet_checks"
  parameterTypes := []
  body := #[
    .literal (.bool false) .bool,
    .branch (.value 1) true 7,
    .literal (.str "verbose") .string,
    .branch (.value 1) true 7,
    .literal (.str "very verbose") .string,
    .call "println" [.value 5] .nothing,
    .ret none]

/-- The first check counts the statement between the two, the second one the two behind it. Besides
these three only the flag defines a value and is no target. -/
theorem deadStatements_counts_once_quietChecks :
    (quietChecks.propagate .initial 20).decidedBranches =
        [⟨2, true, 1, false, 7⟩, ⟨4, true, 2, false, 7⟩] ∧
      Disjoint (DecidedBranch.positions ⟨2, true, 1, false, 7⟩)
        (DecidedBranch.positions ⟨4, true, 2, false, 7⟩) ∧
      6 ∉ quietChecks.jumpTargets ∧
      quietChecks.size < UInt64.size ∧
      (quietChecks.propagate .initial 20).deadStatements.toNat = 3 ∧
      3 ≤ quietChecks.unjoined.card := by
  have hbranches : (quietChecks.propagate .initial 20).decidedBranches =
      [⟨2, true, 1, false, 7⟩, ⟨4, true, 2, false, 7⟩] := by decide +kernel
  obtain ⟨hdisjoint, hcounted, -, -, hle, hexact⟩ :=
    deadStatements_counts_once quietChecks .initial 20
  have hsize : quietChecks.size < UInt64.size := by decide
  have htotal : (quietChecks.propagate .initial 20).deadStatements.toNat = 3 := by
    rw [hexact hsize, hbranches]
    rfl
  rw [hbranches, List.pairwise_pair] at hdisjoint
  have hsecond : (⟨4, true, 2, false, 7⟩ : DecidedBranch) ∈
      (quietChecks.propagate .initial 20).decidedBranches := by
    rw [hbranches]
    exact List.mem_cons_of_mem _ List.mem_cons_self
  refine ⟨hbranches, hdisjoint.2, ?_, hsize, htotal, htotal ▸ hle⟩
  exact ((hcounted _ hsecond).2 6 (by decide)).2

end Func
end SsaAdvisor
