import SsaAdvisor.Func.Defect
import SsaAdvisor.Interruption

/-!
# Sections of a report

A section tells apart a pass that did not run, a pass that ran and found nothing, and a pass with
results.

Follows `Section::from_data` and the views of a section.
Spec guidance: `SPEC_FULL.md` §10.5.
-/

namespace SsaAdvisor

/-- The part of a report that holds the results of one pass. -/
inductive Section (α : Type) where
  /-- There is no result, for the given reason. -/
  | absent (reason : String)
  /-- There was nothing to find. -/
  | empty
  /-- The results of the pass. -/
  | populated (data : α)
deriving DecidableEq

namespace Section

variable {α : Type}

/-- Whether the pass gave no result. -/
def isAbsent : Section α → Bool
  | .absent _ => true
  | .empty | .populated _ => false

/-- Whether the pass found nothing. -/
def isEmpty : Section α → Bool
  | .empty => true
  | .absent _ | .populated _ => false

/-- Whether the pass has results. -/
def isPopulated : Section α → Bool
  | .populated _ => true
  | .absent _ | .empty => false

/-- The results of the pass. -/
def data? : Section α → Option α
  | .populated data => some data
  | .absent _ | .empty => none

/-- What the section comes to: what is made of its results, and nothing without results. -/
def contribution {β : Type} [Zero β] (s : Section α) (ofData : α → β) : β :=
  match s with
  | .populated data => ofData data
  | .absent _ | .empty => 0

/-- Why the pass gave no result. -/
def absentReason? : Section α → Option String
  | .absent reason => some reason
  | .empty | .populated _ => none

/-- The section of some results, empty if they have no content. Follows `Section::from_data`. -/
def ofData (isEmptyData : α → Bool) (data : α) : Section α :=
  if isEmptyData data then .empty else .populated data

/-- The section of a pass: absent if the pass is not to run or fails. -/
def ofPass (passes : PassSet) (pass : Pass) (isEmptyData : α → Bool) (result : Except Defect α) :
    Section α :=
  if passes.contains pass then
    match result with
    | .ok data => ofData isEmptyData data
    | .error defect => .absent (pass.name ++ " failed: " ++ defect.message)
  else .absent "disabled"

/-- The section of a pass that may be interrupted: absent if the pass is to run and is. -/
def ofRun (passes : PassSet) (pass : Pass) (isEmptyData : α → Bool) (result : Except Defect α) :
    Option Interruption → Section α
  | none => ofPass passes pass isEmptyData result
  | some interruption =>
    .absent (if passes.contains pass then interruption.reason pass else "disabled")

/-- Every section is in exactly one of its three states. -/
theorem isPopulated_eq (s : Section α) : s.isPopulated = (!s.isAbsent && !s.isEmpty) := by
  cases s <;> rfl

/-- A section has results exactly when it is populated. -/
theorem isSome_data? (s : Section α) : s.data?.isSome = s.isPopulated := by
  cases s <;> rfl

/-- A section that is not populated comes to nothing. -/
theorem contribution_of_isPopulated_eq_false {β : Type} [Zero β] {s : Section α}
    (h : s.isPopulated = false) (ofData : α → β) : s.contribution ofData = 0 := by
  cases s with
  | populated data => exact Bool.noConfusion h
  | _ => rfl

/-- The section of a pass that runs holds its results, unless they have no content. -/
theorem data?_ofPass {passes : PassSet} {pass : Pass} {isEmptyData : α → Bool} {data : α}
    (hp : passes.contains pass = true) (hd : isEmptyData data = false) :
    (ofPass passes pass isEmptyData (.ok data)).data? = some data := by
  simp [ofPass, ofData, data?, hp, hd]

/-- The section of some results holds no others. -/
theorem eq_of_data?_ofData {isEmptyData : α → Bool} {result data : α}
    (h : (ofData isEmptyData result).data? = some data) : result = data := by
  unfold ofData at h
  split at h
  · simp [data?] at h
  · exact Option.some.inj h

/-- What a section holds is the result of its pass. -/
theorem eq_ok_of_data?_ofPass {passes : PassSet} {pass : Pass} {isEmptyData : α → Bool}
    {result : Except Defect α} {data : α}
    (h : (ofPass passes pass isEmptyData result).data? = some data) : result = .ok data := by
  unfold ofPass at h
  split at h
  · cases result with
    | error defect => exact (nomatch h)
    | ok result => rw [eq_of_data?_ofData h]
  · exact (nomatch h)

/-- The section of a pass that does not fail is absent only if the pass is not to run. -/
theorem absentReason?_ofPass (passes : PassSet) (pass : Pass) (isEmptyData : α → Bool) (data : α) :
    (ofPass passes pass isEmptyData (.ok data)).absentReason? =
      if passes.contains pass then none else some "disabled" := by
  cases hp : passes.contains pass with
  | false => simp [ofPass, hp, absentReason?]
  | true =>
    cases hd : isEmptyData data with
    | false => simp [ofPass, ofData, hp, hd, absentReason?]
    | true => simp [ofPass, ofData, hp, hd, absentReason?]

end Section
end SsaAdvisor
