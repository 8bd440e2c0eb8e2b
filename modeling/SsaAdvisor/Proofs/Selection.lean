import Mathlib.Data.List.Basic
import SsaAdvisor.Advisor
import SsaAdvisor.Proofs.FindingOrder
import SsaAdvisor.Proofs.ReleasePoint

/-!
# Choice of passes

The report with some of the passes is the report with all of them, less the sections of the others.
No section looks at another one, a finding is taken from the section of its pass, and ordering keeps
those that stay in place. The scores lose points for what sections hold, so a score is never lower
with fewer passes.
-/

namespace SsaAdvisor

/-- The section of a pass if the pass is chosen, and else that of a pass that does not run. -/
def Section.onlyIf {α : Type} (chosen : Bool) (s : Section α) : Section α :=
  if chosen then s else .absent "disabled"

/-- The results of the passes of a set, and of no others. -/
def Results.restrict (r : Results) (s : PassSet) : Results where
  signature := r.signature
  escapes := r.escapes.onlyIf (s.contains .escape)
  constants := r.constants.onlyIf (s.contains .constants)
  virtualCalls := r.virtualCalls.onlyIf (s.contains .devirtualization)
  specialization := r.specialization.onlyIf (s.contains .monomorphization)
  lifetimes := r.lifetimes.onlyIf (s.contains .lifetime)

/-- An advisor that runs other passes and is otherwise the same. -/
def Advisor.withPasses (a : Advisor) (s : PassSet) : Advisor :=
  { a with settings := { a.settings with passes := s } }

variable {settings : Settings} {weights : ScoringWeights} {r r' : Results}

private theorem Section.ofPass_eq_onlyIf {α : Type} (s : PassSet) (pass : Pass)
    (isEmptyData : α → Bool) (result : Except Defect α) :
    ofPass s pass isEmptyData result =
      (ofPass .all pass isEmptyData result).onlyIf (s.contains pass) := by
  cases hs : s.contains pass <;> simp [ofPass, onlyIf, PassSet.all, hs]

/-- The results with some passes are those of all passes, restricted to them. -/
theorem Advisor.results_withPasses (a : Advisor) (s : PassSet) (f : Func) :
    (a.withPasses s).results f = ((a.withPasses .all).results f).restrict s := by
  simp only [results_eq, Results.restrict, withPasses, ← Section.ofPass_eq_onlyIf]

namespace Finding

private theorem ofPass_restrict (settings : Settings) (r : Results) (s : PassSet) (pass : Pass) :
    ofPass settings (r.restrict s) pass =
      if s.contains pass then ofPass settings r pass else [] := by
  cases hs : s.contains pass <;> cases pass <;>
    simp [ofPass, Results.restrict, Section.onlyIf, Section.data?, hs]

/-- The findings on restricted results are those of the chosen passes. -/
theorem unordered_restrict (settings : Settings) (r : Results) (s : PassSet) :
    unordered settings (r.restrict s) = (unordered settings r).filter (s.contains ·.pass) := by
  rw [unordered_eq, unordered_eq, List.filter_flatMap]
  congr 1
  funext pass
  rw [ofPass_restrict]
  split
  · next hs =>
    refine (List.filter_eq_self.mpr ?_).symm
    intro finding hm
    rw [pass_of_mem_ofPass hm, hs]
  · next hs =>
    refine (List.filter_eq_nil_iff.mpr ?_).symm
    intro finding hm
    rwa [pass_of_mem_ofPass hm]

/-- The ordered findings on restricted results are those of the chosen passes, in the same order. -/
theorem ofResults_restrict (settings : Settings) (r : Results) (s : PassSet) :
    ofResults settings (r.restrict s) = (ofResults settings r).filter (s.contains ·.pass) := by
  rw [ofResults, unordered_restrict, mergeSort_filter precedes_trans precedes_total, ofResults]

end Finding

namespace Scores

private theorem charge_mono {count count' : Nat} (h : count ≤ count') (penalty : UInt32) :
    charge count penalty ≤ charge count' penalty := by
  have hproduct : min count limit * penalty.toNat ≤ min count' limit * penalty.toNat :=
    Nat.mul_le_mul_right _ (by omega)
  unfold charge
  omega

/-- The performance score does not fall with fewer escaping allocations and dynamic calls. -/
theorem performance_anti (he : escaping r' ≤ escaping r) (hu : unresolved r' ≤ unresolved r) :
    (ofResults weights r).performance ≤ (ofResults weights r').performance := by
  have hescape := charge_mono he weights.escapePenalty
  have hcall := charge_mono hu weights.unresolvedCallPenalty
  simp only [ofResults]
  omega

/-- The size score does not fall with fewer dead statements and variants. -/
theorem size_anti (hd : dead r' ≤ dead r) (hv : variants r' ≤ variants r) :
    (ofResults weights r).size ≤ (ofResults weights r').size := by
  have hdead := charge_mono hd weights.deadStatementPenalty
  have hvariants := charge_mono hv weights.variantPenalty
  simp only [ofResults]
  omega

private theorem performance_congr (he : r.escapes = r'.escapes)
    (hc : r.virtualCalls = r'.virtualCalls) :
    (ofResults weights r).performance = (ofResults weights r').performance := by
  simp only [ofResults, escaping, unresolved, he, hc]

private theorem size_congr (hc : r.constants = r'.constants)
    (hs : r.specialization = r'.specialization) :
    (ofResults weights r).size = (ofResults weights r').size := by
  simp only [ofResults, dead, variants, hc, hs]

/-- Restricted results score no lower. -/
theorem le_restrict (weights : ScoringWeights) (r : Results) (s : PassSet) :
    (ofResults weights r).performance ≤ (ofResults weights (r.restrict s)).performance ∧
      (ofResults weights r).size ≤ (ofResults weights (r.restrict s)).size := by
  constructor
  · apply performance_anti
    · cases hs : s.contains .escape <;>
        simp [escaping, Results.restrict, Section.onlyIf, Section.data?, hs]
    · cases hs : s.contains .devirtualization <;>
        simp [unresolved, Results.restrict, Section.onlyIf, Section.data?, hs]
  · apply size_anti
    · cases hs : s.contains .constants <;>
        simp [dead, Results.restrict, Section.onlyIf, Section.data?, hs]
    · cases hs : s.contains .monomorphization <;>
        simp [variants, Results.restrict, Section.onlyIf, Section.data?, hs]

end Scores

namespace Advisor

/-- The report on an accepted function with some of the passes has the same sections for these as
the report with all passes and no others, and those of its findings that are of these passes, in the
same order. The performance score depends on the sections of escaping allocations and virtual calls
alone, the size score on those of constants and the specialization alone, and neither is lower than
with all passes. -/
theorem report_withPasses {f : Func} (hv : f.validate = .ok ()) (a : Advisor) (s : PassSet) :
    ∃ part full, (a.withPasses s).report f = .ok part ∧ (a.withPasses .all).report f = .ok full ∧
      part.results = full.results.restrict s ∧
      part.findings = full.findings.filter (s.contains ·.pass) ∧
      full.scores.performance ≤ part.scores.performance ∧ full.scores.size ≤ part.scores.size ∧
      ∀ (other : PassSet) (r : Results),
        (r.escapes = part.results.escapes → r.virtualCalls = part.results.virtualCalls →
          ((a.withPasses other).assess r).scores.performance = part.scores.performance) ∧
        (r.constants = part.results.constants → r.specialization = part.results.specialization →
          ((a.withPasses other).assess r).scores.size = part.scores.size) := by
  have hresults := a.results_withPasses s f
  obtain ⟨hperformance, hsize⟩ :=
    Scores.le_restrict a.settings.scoring ((a.withPasses .all).results f) s
  rw [← hresults] at hperformance hsize
  refine ⟨_, _, (a.withPasses s).report_eq_ok hv, (a.withPasses .all).report_eq_ok hv, hresults, ?_,
    hperformance, hsize, fun other r ↦ ⟨Scores.performance_congr, Scores.size_congr⟩⟩
  calc Finding.ofResults (a.withPasses s).settings ((a.withPasses s).results f)
      = Finding.ofResults (a.withPasses .all).settings
          (((a.withPasses .all).results f).restrict s) := by rw [← hresults]; rfl
    _ = (Finding.ofResults (a.withPasses .all).settings
          ((a.withPasses .all).results f)).filter (s.contains ·.pass) :=
        Finding.ofResults_restrict _ _ _

/-- The release that is found for a loop is found without the other passes too, and the score of
size, which a decided branch lowers, is no lower without them. -/
theorem report_withPasses_retryLoop :
    Func.retryLoop.validate = .ok () ∧
      ∃ part full : Report,
        ((⟨.initial, {}⟩ : Advisor).withPasses (.ofList [.lifetime])).report Func.retryLoop =
          .ok part ∧
        part.results.lifetimes = full.results.lifetimes ∧
        full.results.lifetimes = .populated [⟨2, "malloc", 4, [], some 5⟩] ∧
        part.findings = full.findings.filter ((PassSet.ofList [.lifetime]).contains ·.pass) ∧
        full.scores.size = 99 ∧ 99 ≤ part.scores.size := by
  have hv : Func.retryLoop.validate = .ok () := by decide +kernel
  obtain ⟨part, full, hpart, hfull, hresults, hfindings, -, hsize, -⟩ :=
    report_withPasses hv ⟨.initial, {}⟩ (.ofList [.lifetime])
  obtain rfl := Except.ok.inj ((report_eq_ok _ hv).symm.trans hfull)
  have hscore : (((⟨.initial, {}⟩ : Advisor).withPasses .all).assess
      (((⟨.initial, {}⟩ : Advisor).withPasses .all).results Func.retryLoop)).scores.size = 99 := by
    decide +kernel
  exact ⟨hv, part, _, hpart, by rw [hresults]; rfl, by decide +kernel, hfindings, hscore,
    hscore ▸ hsize⟩

end Advisor
end SsaAdvisor
