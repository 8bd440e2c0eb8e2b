import Mathlib.Data.List.Basic
import SsaAdvisor.Advisor
import SsaAdvisor.Proofs.Dispatch
import SsaAdvisor.Proofs.FindingOrder
import SsaAdvisor.Proofs.ReleasePoint
import SsaAdvisor.Proofs.Sweep

/-!
# Well-formed reports

A function is reported on exactly if it is accepted, and then no pass that is chosen fails. Every
record of the report stands at a statement of its own kind in the body, and the records of a pass
stand in ascending order. A release that is offered stands behind the last use and not behind the
return that follows it.
-/

namespace SsaAdvisor

namespace Func

/-- Whether the statement at a position calls the callee. -/
def CallsAt (f : Func) (callee : String) (position : Nat) : Prop :=
  ∃ args resultType, f.statement? position = some (.call callee args resultType)

/-- A list of records of statements: in ascending order of their positions, all of them in the body,
and each record as required. -/
structure Lists (f : Func) {α : Type} (index : α → Nat) (required : α → Prop) (records : List α) :
    Prop where
  ascending : records.Pairwise (index · < index ·)
  inBody : ∀ r ∈ records, 1 ≤ index r ∧ index r ≤ f.size
  required : ∀ r ∈ records, required r

end Func

/-- A verdict stands at the call that allocates. -/
def EscapeRecord.StandsIn (r : EscapeRecord) (f : Func) : Prop := f.CallsAt r.callee r.index

/-- A constant stands at its literal, at a read of an immutable global, or at a call that was
computed. -/
inductive ConstantRecord.StandsIn (r : ConstantRecord) (f : Func) : Prop where
  | literal {c : Constant} {ty : Ty} (statement : f.statement? r.index = some (.literal c ty))
    (value : r.value = some c) (isGlobalImmutable : r.isGlobalImmutable = false)
    (folded : r.folded = false)
  | globalRead {symbol : String} {ty : Ty}
    (statement : f.statement? r.index = some (.globalRead symbol ty true))
    (isGlobalImmutable : r.isGlobalImmutable = true) (folded : r.folded = false)
  | call {callee : String} (statement : f.CallsAt callee r.index) (value : r.value.isSome = true)
    (isGlobalImmutable : r.isGlobalImmutable = false) (folded : r.folded = true)

/-- A decided branch stands at a branch, whose target it has and which lies in the body. -/
structure DecidedBranch.StandsIn (d : DecidedBranch) (f : Func) : Prop where
  statement : ∃ condition fallthroughIsTrue,
    f.statement? d.index = some (.branch condition fallthroughIsTrue d.target)
  target : 1 ≤ d.target ∧ d.target ≤ f.size

/-- A virtual call stands at a call whose receiver has the type that it has, which is not concrete.
-/
structure VirtualCall.StandsIn (call : VirtualCall) (f : Func) : Prop where
  statement : ∃ receiver args resultType,
    f.statement? call.index = some (.call call.callee (receiver :: args) resultType) ∧
      f.operandType call.index receiver = .ok call.receiverType
  isConcrete : call.receiverType.isConcrete = false

/-- An open parameter stands at a place of the signature that has its type. -/
structure OpenParameter.StandsIn (p : OpenParameter) (signature : Signature) : Prop where
  position : 1 ≤ p.position ∧ p.position ≤ signature.parameterTypes.length
  declaredType : Specialization.typeAt? signature p.position p.nested = some p.declaredType
  isAbstract : p.declaredType.isAbstract = true

/-- Whether an open parameter stands in front of another one: at an earlier position, or at an
earlier argument of the same container. -/
def OpenParameter.Before (p q : OpenParameter) : Prop :=
  p.position < q.position ∨
    p.position = q.position ∧ ∃ i j, p.nested = some i ∧ q.nested = some j ∧ i < j

/-- A lifetime stands at the call that allocates. Its last use is the allocation or stands behind
it, and a release that is offered stands behind the last use, up to the next return. -/
structure Lifetime.StandsIn (l : Lifetime) (f : Func) : Prop where
  statement : f.CallsAt l.callee l.index
  lastUse : l.index ≤ l.lastUse ∧ l.lastUse ≤ f.size
  releaseBefore : ∀ k, l.releaseBefore = some k →
    l.lastUse < k ∧ ∃ ret, f.nextReturn? l.lastUse = some ret ∧ k ≤ ret

namespace Results

/-- Why there is no result of a pass. -/
def absentReason? (r : Results) : Pass → Option String
  | .escape => r.escapes.absentReason?
  | .constants => r.constants.absentReason?
  | .devirtualization => r.virtualCalls.absentReason?
  | .monomorphization => r.specialization.absentReason?
  | .lifetime => r.lifetimes.absentReason?

/-- The records of all sections stand where they should, in order. -/
structure WellFormed (r : Results) (f : Func) : Prop where
  signature : r.signature = f.signature
  escapes : ∀ records, r.escapes.data? = some records →
    f.Lists EscapeRecord.index (·.StandsIn f) records
  constants : ∀ p, r.constants.data? = some p →
    f.Lists ConstantRecord.index (·.StandsIn f) p.records
  decidedBranches : ∀ p, r.constants.data? = some p →
    f.Lists DecidedBranch.index (·.StandsIn f) p.decidedBranches
  virtualCalls : ∀ calls, r.virtualCalls.data? = some calls →
    f.Lists VirtualCall.index (·.StandsIn f) calls
  specialization : ∀ s, r.specialization.data? = some s →
    s.parameters.Pairwise OpenParameter.Before ∧ ∀ p ∈ s.parameters, p.StandsIn f.signature
  lifetimes : ∀ lifetimes, r.lifetimes.data? = some lifetimes →
    f.Lists Lifetime.index (·.StandsIn f) lifetimes

end Results

/-- The sections of a report are well formed, and the findings are about statements of the body. -/
structure Report.WellFormed (r : Report) (f : Func) : Prop where
  results : r.results.WellFormed f
  findings : ∀ finding ∈ r.findings, ∀ i, finding.statement = some i → 1 ≤ i ∧ i ≤ f.size

namespace Func

variable {f : Func} {ctx : Context} {lookahead : Nat}

namespace Lists

variable {α β : Type} {index : α → Nat} {required : α → Prop} {records : List α}

/-- What is made of each record keeps the order. -/
theorem map (h : f.Lists index required records) {g : α → β} {index' : β → Nat}
    {required' : β → Prop} (hi : ∀ r, index' (g r) = index r)
    (hr : ∀ r, required r → required' (g r)) : f.Lists index' required' (records.map g) := by
  refine ⟨?_, ?_, ?_⟩
  · rw [List.pairwise_map]
    simpa only [hi] using h.ascending
  · rw [List.forall_mem_map]
    simpa only [hi] using h.inBody
  · rw [List.forall_mem_map]
    exact fun r hm ↦ hr r (h.required r hm)

/-- Some of the records stand in the same order. -/
theorem filter (h : f.Lists index required records) (chosen : α → Bool) :
    f.Lists index required (records.filter chosen) :=
  ⟨h.ascending.filter _, fun r hm ↦ h.inBody r (List.mem_filter.mp hm).1,
    fun r hm ↦ h.required r (List.mem_filter.mp hm).1⟩

end Lists

private theorem lists_filterMap {α : Type} {find : Statement × Nat → Option α} {index : α → Nat}
    {required : α → Prop} (hi : ∀ s position r, find (s, position) = some r → index r = position)
    (hr : ∀ s r, f.statement? (index r) = some s → find (s, index r) = some r → required r) :
    f.Lists index required (f.numbered.filterMap find) := by
  have hstatement : ∀ r ∈ f.numbered.filterMap find,
      ∃ s, f.statement? (index r) = some s ∧ find (s, index r) = some r := by
    intro r hm
    obtain ⟨⟨s, position⟩, hs, hfind⟩ := List.mem_filterMap.mp hm
    obtain rfl := hi s position r hfind
    exact ⟨s, mem_numbered.mp hs, hfind⟩
  refine ⟨f.pairwise_filterMap_numbered hi, ?_, ?_⟩
  · intro r hm
    obtain ⟨s, hs, -⟩ := hstatement r hm
    exact bounds_of_statement? hs
  · intro r hm
    obtain ⟨s, hs, hfind⟩ := hstatement r hm
    exact hr s r hs hfind

private theorem lists_allocationSites (f : Func) (ctx : Context) :
    f.Lists AllocationSite.index (fun site ↦ f.CallsAt site.callee site.index)
      (f.allocationSites ctx) := by
  apply lists_filterMap
  · intro s position site h
    obtain ⟨_, _, _, _, -, -, rfl⟩ := allocationAt?_eq_some_iff.mp h
    rfl
  · intro s site hs h
    obtain ⟨callee, args, resultType, _, rfl, -, hsite⟩ := allocationAt?_eq_some_iff.mp h
    have hcallee : site.callee = callee := by rw [hsite]
    exact ⟨args, resultType, hcallee ▸ hs⟩

private theorem lists_escapeRecords (f : Func) (ctx : Context)
    (stackThreshold scalarThreshold : Nat) :
    f.Lists EscapeRecord.index (·.StandsIn f)
      (f.escapeRecords ctx stackThreshold scalarThreshold) :=
  (f.lists_allocationSites ctx).map (fun _ ↦ rfl) fun _ ↦ id

private theorem lists_records (f : Func) (ctx : Context) (lookahead : Nat) :
    f.Lists ConstantRecord.index (·.StandsIn f) (f.propagate ctx lookahead).records := by
  apply lists_filterMap
  · intro s position r h
    obtain ⟨state, -, rfl⟩ := Option.map_eq_some_iff.mp h
    rfl
  · intro s r hs h
    obtain ⟨state, hstate, hr⟩ := Option.map_eq_some_iff.mp h
    obtain ⟨hat, hconstant⟩ := Option.filter_eq_some_iff.mp hstate
    rw [at?_valueStates hs, Option.some.injEq] at hat
    generalize (f.valueStates ctx).before r.index = states at hat
    -- the transfer of any other statement finds a value that varies
    cases s with
    | literal c ty =>
      subst hat
      exact .literal hs (by rw [← hr]; rfl) (by rw [← hr]) (by rw [← hr])
    | globalRead symbol ty isImmutable =>
      cases isImmutable with
      | true => exact .globalRead hs (by rw [← hr]) (by rw [← hr])
      | false => simp [← hat, ValueStates.transfer, ValueState.isConstant] at hconstant
    | call callee args ty =>
      cases hf : states.fold? callee args with
      | some c =>
        have hknown : state = .known c := by simp [← hat, ValueStates.transfer, hf]
        exact .call ⟨args, ty, hs⟩ (by rw [← hr, hknown]; rfl) (by rw [← hr]) (by rw [← hr])
      | none => simp [← hat, ValueStates.transfer, hf, ValueState.isConstant] at hconstant
    | _ => simp [← hat, ValueStates.transfer, ValueState.isConstant] at hconstant

private theorem lists_decidedBranches (hv : f.validate = .ok ()) (ctx : Context) (lookahead : Nat) :
    f.Lists DecidedBranch.index (·.StandsIn f) (f.propagate ctx lookahead).decidedBranches := by
  apply lists_filterMap
  · exact fun s position d h ↦ (decidedBranch?_eq_some_iff.mp h).1
  · intro s d hs h
    obtain ⟨-, condition, fallthroughIsTrue, rfl, -⟩ := decidedBranch?_eq_some_iff.mp h
    exact ⟨⟨condition, fallthroughIsTrue, hs⟩, bounds_of_jumpTarget?_of_validate hv hs rfl⟩

private theorem lists_virtualCalls {maxSwitchTargets : Nat} {calls : List VirtualCall}
    (h : f.virtualCalls ctx maxSwitchTargets lookahead = .ok calls) :
    f.Lists VirtualCall.index (·.StandsIn f) calls := by
  refine ⟨pairwise_virtualCalls h, ?_, ?_⟩
  · intro call hc
    obtain ⟨s, hs, -⟩ := exists_of_mem_virtualCalls h hc
    exact bounds_of_statement? hs
  · intro call hc
    obtain ⟨s, hs, hcall⟩ := exists_of_mem_virtualCalls h hc
    obtain ⟨callee, receiver, args, resultType, receiverType, rfl, -, hty, hn, hrecord⟩ :=
      virtualCall?_eq_ok_some_iff.mp hcall
    have hcallee : call.callee = callee := by rw [hrecord]
    have hreceiver : call.receiverType = receiverType := by rw [hrecord]
    subst hcallee hreceiver
    exact ⟨⟨receiver, args, resultType, hs, hty⟩, hn⟩

private theorem lists_lifetimes (f : Func) (ctx : Context) (lookahead : Nat) :
    f.Lists Lifetime.index (·.StandsIn f) (f.lifetimes ctx lookahead) := by
  refine ((f.lists_allocationSites ctx).filter (·.kind == .manual)).map (fun _ ↦ rfl) ?_
  intro site hsite
  obtain ⟨args, resultType, hs⟩ := hsite
  refine ⟨⟨args, resultType, hs⟩, ⟨f.le_lastReader ctx site.index, ?_⟩, ?_⟩
  · exact lastReader_le_size ctx (bounds_of_statement? hs).2
  · intro k hk
    obtain ⟨-, hpoint⟩ := releaseBefore_lifetime_eq_some.mp hk
    obtain ⟨ret, hret, hlt, hle, -⟩ := of_releasePoint?_eq_some hpoint
    exact ⟨hlt, ret, hret, hle⟩

end Func

namespace Specialization

private theorem pairwise_openTypes (declared : Ty) :
    (openTypes declared).Pairwise fun a b ↦
      ∃ i j, a.1 = some i ∧ b.1 = some j ∧ i < j := by
  unfold openTypes
  split
  · exact List.pairwise_singleton _ _
  · rw [List.pairwise_map]
    cases declared with
    | container name args =>
      rw [Ty.abstractArgs, List.pairwise_filterMap]
      apply (pairwise_zipIdx args 0).imp
      rintro ⟨arg, i⟩ ⟨arg', j⟩ hlt a ha b hb
      obtain ⟨-, ha⟩ := Option.ite_none_right_eq_some.mp ha
      obtain ⟨-, hb⟩ := Option.ite_none_right_eq_some.mp hb
      rw [← Option.some.inj ha, ← Option.some.inj hb]
      exact ⟨i, j, rfl, rfl, hlt⟩
    | _ => exact .nil

/-- The open types of a parameter are open, and stand at their places in a signature. -/
theorem of_mem_openTypes {signature : Signature} {declared ty : Ty} {position : Nat}
    {nested : Option Nat} (h : (nested, ty) ∈ openTypes declared)
    (hd : signature.parameterTypes[position - 1]? = some declared) :
    ty.isAbstract = true ∧ typeAt? signature position nested = some ty := by
  unfold openTypes at h
  split at h
  · next hopen =>
    obtain ⟨rfl, rfl⟩ := Prod.mk.inj (List.mem_singleton.mp h)
    exact ⟨hopen, hd⟩
  · obtain ⟨⟨i, arg⟩, hm, heq⟩ := List.mem_map.mp h
    obtain ⟨rfl, rfl⟩ := Prod.mk.inj heq
    cases declared with
    | container name args =>
      obtain ⟨⟨arg', j⟩, harg, hif⟩ := List.mem_filterMap.mp hm
      obtain ⟨hopen, hpair⟩ := Option.ite_none_right_eq_some.mp hif
      obtain ⟨rfl, rfl⟩ := Prod.mk.inj (Option.some.inj hpair)
      have hget := List.mem_zipIdx_iff_getElem?.mp harg
      exact ⟨hopen, by simpa [typeAt?, hd] using hget⟩
    | _ => simp [Ty.abstractArgs] at hm

/-- The open parameters of a signature stand in order at their places. -/
theorem pairwise_openParameters (ctx : Context) (signature : Signature) :
    (openParameters ctx signature).Pairwise OpenParameter.Before ∧
      ∀ p ∈ openParameters ctx signature, p.StandsIn signature := by
  constructor
  · rw [openParameters, List.pairwise_flatMap]
    constructor
    · rintro ⟨declared, position⟩ -
      rw [List.pairwise_map]
      exact (pairwise_openTypes declared).imp fun hnested ↦ .inr ⟨rfl, hnested⟩
    · apply (pairwise_zipIdx signature.parameterTypes 1).imp
      rintro ⟨declared, position⟩ ⟨declared', position'⟩ hlt p hp q hq
      obtain ⟨-, -, rfl⟩ := List.mem_map.mp hp
      obtain ⟨-, -, rfl⟩ := List.mem_map.mp hq
      exact .inl hlt
  · intro p hp
    obtain ⟨⟨declared, position⟩, hm, hp⟩ := List.mem_flatMap.mp hp
    obtain ⟨⟨nested, ty⟩, hty, rfl⟩ := List.mem_map.mp hp
    obtain ⟨hle, hget⟩ := List.mem_zipIdx_iff_le_and_getElem?_sub.mp hm
    obtain ⟨hopen, hat⟩ := of_mem_openTypes hty hget
    have hlt := (List.getElem?_eq_some_iff.mp hget).1
    exact ⟨⟨hle, by simp only [openParameter]; omega⟩, hat, hopen⟩

end Specialization

/-- The findings of well-formed results are about statements of the body. -/
theorem Results.WellFormed.inBody {r : Results} {f : Func} (h : r.WellFormed f)
    {settings : Settings} {pass : Pass} {finding : Finding}
    (hm : finding ∈ Finding.ofPass settings r pass) {i : Nat} (hi : finding.statement = some i) :
    1 ≤ i ∧ i ≤ f.size := by
  cases pass with
  | escape =>
    obtain ⟨e, he, hfinding⟩ := List.mem_filterMap.mp hm
    obtain ⟨records, hr, he⟩ := mem_getD_nil.mp he
    rw [(Finding.pass_and_statement_of_ofEscape? hfinding).2, Option.some.injEq] at hi
    exact hi ▸ (h.escapes records hr).inBody e he
  | constants =>
    obtain ⟨d, hd, rfl⟩ := List.mem_map.mp hm
    obtain ⟨branches, hb, hd⟩ := mem_getD_nil.mp hd
    obtain ⟨p, hp, rfl⟩ := Option.map_eq_some_iff.mp hb
    exact Option.some.inj hi ▸ (h.decidedBranches p hp).inBody d hd
  | devirtualization =>
    obtain ⟨call, hc, rfl⟩ := List.mem_map.mp hm
    obtain ⟨calls, hcalls, hc⟩ := mem_getD_nil.mp hc
    rw [Finding.statement_ofVirtualCall, Option.some.injEq] at hi
    exact hi ▸ (h.virtualCalls calls hcalls).inBody call hc
  | monomorphization =>
    obtain ⟨findings, hs, hm⟩ := mem_getD_nil.mp hm
    obtain ⟨s, -, rfl⟩ := Option.map_eq_some_iff.mp hs
    rw [(Finding.pass_and_statement_of_mem_ofSpecialization hm).2] at hi
    exact (nomatch hi)
  | lifetime =>
    obtain ⟨l, hl, rfl⟩ := List.mem_map.mp hm
    obtain ⟨lifetimes, hr, hl⟩ := mem_getD_nil.mp hl
    exact Option.some.inj hi ▸ (h.lifetimes lifetimes hr).inBody l hl

namespace Advisor

variable {f : Func}

/-- The results of the passes on an accepted function are well formed. -/
theorem wellFormed_results (hv : f.validate = .ok ()) (a : Advisor) :
    (a.results f).WellFormed f where
  signature := rfl
  escapes records h := by
    obtain rfl := Except.ok.inj (Section.eq_ok_of_data?_ofPass h)
    exact f.lists_escapeRecords _ _ _
  constants p h := by
    obtain rfl := Except.ok.inj (Section.eq_ok_of_data?_ofPass h)
    exact f.lists_records _ _
  decidedBranches p h := by
    obtain rfl := Except.ok.inj (Section.eq_ok_of_data?_ofPass h)
    exact Func.lists_decidedBranches hv _ _
  virtualCalls calls h := Func.lists_virtualCalls (Section.eq_ok_of_data?_ofPass h)
  specialization s h := by
    obtain rfl := Except.ok.inj (Section.eq_ok_of_data?_ofPass h)
    exact Specialization.pairwise_openParameters _ _
  lifetimes lifetimes h := by
    obtain rfl := Except.ok.inj (Section.eq_ok_of_data?_ofPass h)
    exact f.lists_lifetimes _ _

private theorem absentReason?_results (hv : f.validate = .ok ()) (a : Advisor) (pass : Pass) :
    (a.results f).absentReason? pass =
      if a.settings.passes.contains pass then none else some "disabled" := by
  cases pass with
  | devirtualization =>
    obtain ⟨calls, hcalls⟩ := Func.exists_virtualCalls hv a.context a.settings.maxSwitchTargets
      a.settings.deadBranchLookahead
    simp only [Results.absentReason?, results_eq, hcalls]
    exact Section.absentReason?_ofPass _ _ _ _
  | _ => exact Section.absentReason?_ofPass _ _ _ _

/-- A function is refused exactly for the defect for which it is not accepted. On an accepted one
there is a report, in which the sections of the chosen passes are empty or have results and the
others are absent, and whose records and findings stand where they should, in order. -/
theorem report_wellFormed (a : Advisor) (f : Func) :
    (∀ defect, a.report f = .error defect ↔ f.validate = .error defect) ∧
      (f.validate = .ok () → ∃ report, a.report f = .ok report ∧
        (∀ pass, report.results.absentReason? pass =
          if a.settings.passes.contains pass then none else some "disabled") ∧
        report.WellFormed f) := by
  refine ⟨a.report_eq_error_iff f, ?_⟩
  intro hv
  have hw := wellFormed_results hv a
  refine ⟨_, a.report_eq_ok hv, absentReason?_results hv a, hw, ?_⟩
  intro finding hm i hi
  obtain ⟨pass, hm⟩ := Finding.mem_ofResults.mp hm
  exact hw.inBody hm hi

/-- The release that the report on a loop offers stands in front of the return or at it. -/
theorem report_wellFormed_retryLoop :
    Func.retryLoop.validate = .ok () ∧
      ∃ report, (⟨.initial, {}⟩ : Advisor).report Func.retryLoop = .ok report ∧
        report.results.lifetimes.data? = some [⟨2, "malloc", 4, [], some 5⟩] ∧
        ∃ ret, Func.retryLoop.nextReturn? 4 = some ret ∧ 5 ≤ ret := by
  have hv : Func.retryLoop.validate = .ok () := by decide +kernel
  obtain ⟨report, hreport, -, hw⟩ := (report_wellFormed ⟨.initial, {}⟩ Func.retryLoop).2 hv
  have hl : report.results.lifetimes.data? = some [⟨2, "malloc", 4, [], some 5⟩] := by
    obtain rfl := Except.ok.inj ((report_eq_ok ⟨.initial, {}⟩ hv).symm.trans hreport)
    decide +kernel
  have hrelease := ((hw.results.lifetimes _ hl).required _ List.mem_cons_self).releaseBefore 5 rfl
  exact ⟨hv, report, hreport, hl, hrelease.2⟩

end Advisor
end SsaAdvisor
