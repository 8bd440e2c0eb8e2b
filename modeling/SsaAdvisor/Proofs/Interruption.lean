import SsaAdvisor.Proofs.Selection
import SsaAdvisor.Proofs.WellFormed

/-!
# Interrupted runs

An interrupted pass costs the report its own section and what was taken from it, and nothing else.
Scores and findings look at sections with results only, so to them an interrupted pass is one that
was not chosen; the reader of the report is told the reason.
-/

namespace SsaAdvisor

variable {r r' : Results}

/-- Two collections of results that hold the same data, whatever their other sections say. -/
structure Results.SameData (r r' : Results) : Prop where
  escapes : r.escapes.data? = r'.escapes.data?
  constants : r.constants.data? = r'.constants.data?
  virtualCalls : r.virtualCalls.data? = r'.virtualCalls.data?
  specialization : r.specialization.data? = r'.specialization.data?
  lifetimes : r.lifetimes.data? = r'.lifetimes.data?

private theorem Finding.ofResults_congr (h : r.SameData r') (settings : Settings) :
    ofResults settings r = ofResults settings r' := by
  rw [ofResults, ofResults, unordered, unordered, h.escapes, h.constants, h.virtualCalls,
    h.specialization, h.lifetimes]

private theorem Scores.ofResults_congr (h : r.SameData r') (weights : ScoringWeights) :
    ofResults weights r = ofResults weights r' := by
  simp only [ofResults, escaping, unresolved, dead, variants, h.escapes, h.constants,
    h.virtualCalls, h.specialization]

namespace Section

variable {α : Type} {passes : PassSet} {pass : Pass} {isEmptyData : α → Bool}
  {result : Except Defect α} {interruption? : Option Interruption}

private theorem data?_ofRun :
    (ofRun passes pass isEmptyData result interruption?).data? =
      ((ofPass passes pass isEmptyData result).onlyIf interruption?.isNone).data? := by
  cases interruption? <;> rfl

private theorem onlyIf_ofRun :
    (ofRun passes pass isEmptyData result interruption?).onlyIf interruption?.isNone =
      (ofPass passes pass isEmptyData result).onlyIf interruption?.isNone := by
  cases interruption? <;> rfl

private theorem absentReason?_ofRun (data : α) :
    (ofRun passes pass isEmptyData (.ok data) interruption?).absentReason? =
      if passes.contains pass then interruption?.map (·.reason pass) else some "disabled" := by
  cases interruption? with
  | none => exact absentReason?_ofPass passes pass isEmptyData data
  | some interruption => cases hp : passes.contains pass <;> simp [ofRun, absentReason?, hp]

end Section

namespace Advisor

variable {f : Func} {interruption? : Pass → Option Interruption}

/-- What interrupted passes leave is the data of the others. -/
theorem sameData_resultsWith (a : Advisor) (f : Func) (interruption? : Pass → Option Interruption) :
    (a.resultsWith interruption? f).SameData
      ((a.results f).restrict ⟨fun pass ↦ (interruption? pass).isNone⟩) :=
  ⟨Section.data?_ofRun, Section.data?_ofRun, Section.data?_ofRun, Section.data?_ofRun,
    Section.data?_ofRun⟩

/-- The sections of the passes that are not interrupted are those of an undisturbed run. -/
theorem restrict_resultsWith (a : Advisor) (f : Func) (interruption? : Pass → Option Interruption) :
    (a.resultsWith interruption? f).restrict ⟨fun pass ↦ (interruption? pass).isNone⟩ =
      (a.results f).restrict ⟨fun pass ↦ (interruption? pass).isNone⟩ := by
  simp only [Results.restrict, resultsWith, results_eq, Section.onlyIf_ofRun]

/-- A section of an accepted function is absent if its pass was not to run or was interrupted. -/
theorem absentReason?_resultsWith (hv : f.validate = .ok ()) (a : Advisor) (pass : Pass) :
    (a.resultsWith interruption? f).absentReason? pass =
      if a.settings.passes.contains pass then (interruption? pass).map (·.reason pass)
      else some "disabled" := by
  cases pass with
  | devirtualization =>
    obtain ⟨calls, hcalls⟩ := Func.exists_virtualCalls hv a.context a.settings.maxSwitchTargets
      a.settings.deadBranchLookahead
    simp only [Results.absentReason?, resultsWith, hcalls]
    exact Section.absentReason?_ofRun calls
  | _ => exact Section.absentReason?_ofRun _

/-- Whatever the course of a run, an accepted function has a report. It has the sections of an
undisturbed run for all passes that come to a result, tells for every other chosen pass why it does
not, and has those findings of the undisturbed run that are not of interrupted passes, in the same
order. Neither score is lower than that of the undisturbed run. -/
theorem reportIn_interrupted (hv : f.validate = .ok ()) (a : Advisor) (course : Course) :
    let interruption? := course.interruption? a.settings.timeout
    let finished : PassSet := ⟨fun pass ↦ (interruption? pass).isNone⟩
    ∃ part whole, a.reportIn course f = .ok part ∧ a.report f = .ok whole ∧
      part.results.restrict finished = whole.results.restrict finished ∧
      (∀ pass, part.results.absentReason? pass =
        if a.settings.passes.contains pass then (interruption? pass).map (·.reason pass)
        else some "disabled") ∧
      part.findings = whole.findings.filter (finished.contains ·.pass) ∧
      whole.scores.performance ≤ part.scores.performance ∧
      whole.scores.size ≤ part.scores.size := by
  intro interruption? finished
  have hsame := a.sameData_resultsWith f interruption?
  have hpart : a.reportIn course f = .ok (a.assess (a.resultsWith interruption? f)) := by
    rw [reportIn, hv]
    rfl
  have hscores := Scores.le_restrict a.settings.scoring (a.results f) finished
  rw [← Scores.ofResults_congr hsame] at hscores
  refine ⟨_, _, hpart, a.report_eq_ok hv, a.restrict_resultsWith f interruption?,
    absentReason?_resultsWith hv a, ?_, hscores⟩
  calc Finding.ofResults a.settings (a.resultsWith interruption? f)
      = Finding.ofResults a.settings ((a.results f).restrict finished) :=
        Finding.ofResults_congr hsame a.settings
    _ = (Finding.ofResults a.settings (a.results f)).filter (finished.contains ·.pass) :=
        Finding.ofResults_restrict _ _ _

end Advisor
end SsaAdvisor
