import SsaAdvisor.Report.Finding
import SsaAdvisor.Report.Score

/-!
# Advice on functions

An advisor checks a function once, runs the chosen passes on it and puts their results together with
scores and findings. Only a defect of the function makes it fail. How a run goes, so which passes
are late or break off, is an input (`Course`); in an undisturbed run all of them come to a result.

Follows `Analyzer::analyze`, `analyze_many`, `assemble` and `set_absent`.
Spec guidance: `SPEC_FULL.md` §§4.6, 7, 10.5.
-/

namespace SsaAdvisor

/-- The report on one function. -/
structure Report where
  results : Results
  scores : Scores
  findings : List Finding

/-- What is known about the program, and what to analyze. -/
structure Advisor where
  context : Context
  settings : Settings

namespace Advisor

/-- The results of the chosen passes on a function, of which some may be interrupted.
Follows `assemble`. -/
def resultsWith (a : Advisor) (interruption? : Pass → Option Interruption) (f : Func) : Results :=
  let ctx := a.context
  let s := a.settings
  { signature := f.signature
    escapes :=
      .ofRun s.passes .escape List.isEmpty
        (.ok (f.escapeRecords ctx s.stackThreshold s.scalarThreshold)) (interruption? .escape)
    constants :=
      .ofRun s.passes .constants Propagation.isEmpty
        (.ok (f.propagate ctx s.deadBranchLookahead)) (interruption? .constants)
    virtualCalls :=
      .ofRun s.passes .devirtualization List.isEmpty
        (f.virtualCalls ctx s.maxSwitchTargets s.deadBranchLookahead)
        (interruption? .devirtualization)
    specialization :=
      .ofRun s.passes .monomorphization Specialization.isEmpty
        (.ok (Specialization.ofSignature ctx f.signature)) (interruption? .monomorphization)
    lifetimes :=
      .ofRun s.passes .lifetime List.isEmpty
        (.ok (f.lifetimes ctx s.deadBranchLookahead)) (interruption? .lifetime) }

/-- The results of the chosen passes on a function, none of which is interrupted. -/
def results (a : Advisor) (f : Func) : Results := a.resultsWith (fun _ ↦ none) f

/-- The report on given results. -/
def assess (a : Advisor) (results : Results) : Report :=
  ⟨results, .ofResults a.settings.scoring results, Finding.ofResults a.settings results⟩

/-- The report on a function from a run of the given course, or the function's first defect.
Follows `Analyzer::analyze`. -/
def reportIn (a : Advisor) (course : Course) (f : Func) : Except Defect Report := do
  f.validate
  return a.assess (a.resultsWith (course.interruption? a.settings.timeout) f)

/-- The report on a function from an undisturbed run, or the function's first defect. -/
def report (a : Advisor) (f : Func) : Except Defect Report := do
  f.validate
  return a.assess (a.results f)

/-- The reports on several functions, in order. Follows `Analyzer::analyze_many`. -/
def reports (a : Advisor) (functions : List Func) : List (Except Defect Report) :=
  functions.map a.report

/-- The results of passes that are not interrupted are those of the passes. -/
theorem results_eq (a : Advisor) (f : Func) :
    a.results f =
      { signature := f.signature
        escapes := .ofPass a.settings.passes .escape List.isEmpty
          (.ok (f.escapeRecords a.context a.settings.stackThreshold a.settings.scalarThreshold))
        constants := .ofPass a.settings.passes .constants Propagation.isEmpty
          (.ok (f.propagate a.context a.settings.deadBranchLookahead))
        virtualCalls := .ofPass a.settings.passes .devirtualization List.isEmpty
          (f.virtualCalls a.context a.settings.maxSwitchTargets a.settings.deadBranchLookahead)
        specialization := .ofPass a.settings.passes .monomorphization Specialization.isEmpty
          (.ok (Specialization.ofSignature a.context f.signature))
        lifetimes := .ofPass a.settings.passes .lifetime List.isEmpty
          (.ok (f.lifetimes a.context a.settings.deadBranchLookahead)) } :=
  rfl

/-- An undisturbed run gives the report. -/
theorem reportIn_undisturbed (a : Advisor) (f : Func) :
    a.reportIn .undisturbed f = a.report f := by
  have hnone : Course.undisturbed.interruption? a.settings.timeout = fun _ ↦ none :=
    funext (Course.interruption?_undisturbed a.settings.timeout)
  rw [reportIn, hnone]
  rfl

/-- A function is reported on exactly if it is accepted, and refused for the same defect. -/
theorem report_eq_error_iff (a : Advisor) (f : Func) (defect : Defect) :
    a.report f = .error defect ↔ f.validate = .error defect := by
  unfold report
  cases f.validate <;> simp [bind, Except.bind, pure, Except.pure]

/-- An accepted function is reported on with the results of the chosen passes. -/
theorem report_eq_ok (a : Advisor) {f : Func} (hv : f.validate = .ok ()) :
    a.report f = .ok (a.assess (a.results f)) := by
  rw [report, hv]
  rfl

end Advisor
end SsaAdvisor
