import Mathlib.Data.List.Forall2
import Mathlib.Data.List.TakeWhile
import SsaAdvisor.Advisor
import SsaAdvisor.Proofs.Dispatch
import SsaAdvisor.Proofs.Sweep

/-!
# Lower thresholds

Thresholds decide how much is claimed of what is found, never what is found. The lookahead limits
the count behind a decided branch and nothing else of propagation, so virtual calls and lifetimes do
not depend on it. The other thresholds only withhold promotions and switches. With lower ones a
report has the same records and claims no more of any of them.
-/

namespace SsaAdvisor

/-- Settings whose thresholds are no higher, and which are the same otherwise. -/
structure Settings.Below (c c' : Settings) : Prop where
  same : c' = { c with
    stackThreshold := c'.stackThreshold
    scalarThreshold := c'.scalarThreshold
    deadBranchLookahead := c'.deadBranchLookahead
    maxSwitchTargets := c'.maxSwitchTargets }
  stackThreshold : c.stackThreshold ≤ c'.stackThreshold
  scalarThreshold : c.scalarThreshold ≤ c'.scalarThreshold
  deadBranchLookahead : c.deadBranchLookahead ≤ c'.deadBranchLookahead
  maxSwitchTargets : c.maxSwitchTargets ≤ c'.maxSwitchTargets

/-- The same verdict on an allocation, with no more promotions. -/
structure EscapeRecord.PromotesNoMore (r r' : EscapeRecord) : Prop where
  same : r' = { r with
    canStackPromote := r'.canStackPromote
    canScalarReplace := r'.canScalarReplace }
  canStackPromote : r.canStackPromote = true → r'.canStackPromote = true
  canScalarReplace : r.canScalarReplace = true → r'.canScalarReplace = true

/-- The same virtual call, with the same direct dispatch and a switch no more often. -/
structure VirtualCall.SwitchesNoMore (call call' : VirtualCall) : Prop where
  same : call' = { call with strategy := call'.strategy }
  direct : call.strategy = .direct ↔ call'.strategy = .direct
  switch : call.strategy = .switch → call'.strategy = .switch

/-- The virtual call with the strategy for another limit. -/
def VirtualCall.redispatch (maxSwitchTargets : Nat) (call : VirtualCall) : VirtualCall :=
  { call with strategy := .ofCount call.candidates.size maxSwitchTargets }

/-- Two sections in the same state, with related results if they have any. -/
inductive Section.Rel {α β : Type} (R : α → β → Prop) : Section α → Section β → Prop
  | absent (reason : String) : Rel R (.absent reason) (.absent reason)
  | empty : Rel R .empty .empty
  | populated {a : α} {b : β} (h : R a b) : Rel R (.populated a) (.populated b)

namespace Func

/-- Number of statements between a branch and the next control transfer or join point. -/
def deadRun (f : Func) (branch : Nat) : Nat :=
  ((f.after branch).takeWhile fun (s, position) ↦
    !s.isControlTransfer && !f.joinPoints.contains position).length

/-- The decided branch with the count for another lookahead. -/
def recount (f : Func) (lookahead : Nat) (d : DecidedBranch) : DecidedBranch :=
  { d with statementsEliminated := f.countDead lookahead d.index }

/-- The same propagation, with the statements behind each decided branch counted up to a lookahead
of its own. -/
structure Recounts (f : Func) (lookahead lookahead' : Nat) (p p' : Propagation) : Prop where
  same : p' = { p with decidedBranches := p'.decidedBranches }
  decidedBranches : List.Forall₂
    (fun d d' ↦ d' = { d with statementsEliminated := d'.statementsEliminated } ∧
      d.statementsEliminated = min lookahead (f.deadRun d.index) ∧
      d'.statementsEliminated = min lookahead' (f.deadRun d.index))
    p.decidedBranches p'.decidedBranches

end Func

/-- Results with lower thresholds that claim no more: the same records, with no more promotions and
switches and with counts up to the lower lookahead. -/
structure Results.ClaimsNoMore (f : Func) (c c' : Settings) (r r' : Results) : Prop where
  escapes : Section.Rel (List.Forall₂ EscapeRecord.PromotesNoMore) r.escapes r'.escapes
  constants : Section.Rel (f.Recounts c.deadBranchLookahead c'.deadBranchLookahead)
    r.constants r'.constants
  virtualCalls : Section.Rel (List.Forall₂ VirtualCall.SwitchesNoMore)
    r.virtualCalls r'.virtualCalls
  specialization : r.specialization = r'.specialization
  lifetimes : r.lifetimes = r'.lifetimes

private theorem Section.rel_ofPass {α β : Type} {R : α → β → Prop} {isEmptyData : α → Bool}
    {isEmptyData' : β → Bool} {a : α} {b : β} (passes : PassSet) (pass : Pass)
    (he : isEmptyData a = isEmptyData' b) (h : R a b) :
    Rel R (ofPass passes pass isEmptyData (.ok a)) (ofPass passes pass isEmptyData' (.ok b)) := by
  unfold ofPass
  split
  · simp only [ofData, he]
    split
    · exact .empty
    · exact .populated h
  · exact .absent _

private theorem Section.Rel.exists_data? {α β : Type} {R : α → β → Prop} {s : Section α}
    {s' : Section β}
    (h : Rel R s s') {a : α} (ha : s.data? = some a) : ∃ b, s'.data? = some b ∧ R a b := by
  cases h with
  | absent reason => exact (nomatch ha)
  | empty => exact (nomatch ha)
  | populated h => exact ⟨_, rfl, Option.some.inj ha ▸ h⟩

private theorem isEmpty_eq_of_forall₂ {α β : Type} {R : α → β → Prop} {xs : List α} {ys : List β}
    (h : List.Forall₂ R xs ys) : xs.isEmpty = ys.isEmpty := by
  cases h <;> rfl

private theorem DispatchStrategy.ofCount_eq_switch_iff {count maxSwitchTargets : Nat} :
    ofCount count maxSwitchTargets = .switch ↔ 2 ≤ count ∧ count ≤ maxSwitchTargets := by
  unfold ofCount
  split
  · next hone => simp [hone]
  · split
    · next hswitch => simp [hswitch]
    · next hnone => simp [hnone]

namespace Func

variable {f : Func} {ctx : Context} {lookahead lookahead' : Nat}

/-- The count behind a branch stops at the lookahead. -/
theorem countDead_eq_min (f : Func) (lookahead branch : Nat) :
    f.countDead lookahead branch = min lookahead (f.deadRun branch) := by
  rw [countDead, ← List.take_takeWhile, List.length_take, deadRun]

private theorem decidedBranches_recount (f : Func) (ctx : Context) (lookahead lookahead' : Nat) :
    (f.propagate ctx lookahead').decidedBranches =
      (f.propagate ctx lookahead).decidedBranches.map (f.recount lookahead') := by
  have hstep : f.decidedBranch? lookahead' (f.valueStates ctx) = fun numbered ↦
      (f.decidedBranch? lookahead (f.valueStates ctx) numbered).map (f.recount lookahead') := by
    funext ⟨s, position⟩
    cases s with
    | branch condition fallthroughIsTrue target =>
      simp only [decidedBranch?, Option.map_map]
      rfl
    | _ => rfl
  simp only [propagate, List.map_filterMap, hstep]

/-- The lookahead only changes the counts. -/
theorem recounts_propagate (f : Func) (ctx : Context) (lookahead lookahead' : Nat) :
    f.Recounts lookahead lookahead' (f.propagate ctx lookahead) (f.propagate ctx lookahead') := by
  refine ⟨rfl, ?_⟩
  rw [decidedBranches_recount f ctx lookahead lookahead', List.forall₂_map_right_iff,
    List.forall₂_same]
  intro d hd
  obtain ⟨_, _, -, -, -, hcount⟩ := mem_decidedBranches.mp hd
  exact ⟨rfl, hcount.trans (f.countDead_eq_min _ _), f.countDead_eq_min _ _⟩

private theorem jumpIsDead_lookahead (f : Func) (ctx : Context) (lookahead lookahead' : Nat) :
    (f.propagate ctx lookahead').jumpIsDead = (f.propagate ctx lookahead).jumpIsDead := by
  funext position
  simp only [Propagation.jumpIsDead, Propagation.decidedBranch?,
    decidedBranches_recount f ctx lookahead lookahead', List.find?_map, Option.any_map]
  rfl

/-- Lifetimes do not depend on the lookahead. -/
theorem lifetimes_lookahead (f : Func) (ctx : Context) (lookahead lookahead' : Nat) :
    f.lifetimes ctx lookahead' = f.lifetimes ctx lookahead := by
  have hjumps : f.liveJumps (f.propagate ctx lookahead') =
      f.liveJumps (f.propagate ctx lookahead) := by
    simp only [liveJumps, jumpIsDead_lookahead f ctx lookahead lookahead']
  rw [lifetimes, lifetimes, hjumps]

/-- With lower thresholds no verdict on an allocation promotes more. -/
theorem escapeRecords_below (f : Func) (ctx : Context)
    {stackThreshold scalarThreshold stackThreshold' scalarThreshold' : Nat}
    (hstack : stackThreshold ≤ stackThreshold') (hscalar : scalarThreshold ≤ scalarThreshold') :
    List.Forall₂ EscapeRecord.PromotesNoMore (f.escapeRecords ctx stackThreshold scalarThreshold)
      (f.escapeRecords ctx stackThreshold' scalarThreshold') := by
  rw [escapeRecords, escapeRecords, List.forall₂_map_left_iff, List.forall₂_map_right_iff,
    List.forall₂_same]
  intro site _
  have hbelow : ∀ {threshold threshold' : Nat}, threshold ≤ threshold' →
      site.estimatedBytes.any (· < threshold) = true →
      site.estimatedBytes.any (· < threshold') = true := by
    intro threshold threshold' hle h
    obtain ⟨bytes, hbytes, hlt⟩ := (Option.any_eq_true _ _).mp h
    exact (Option.any_eq_true _ _).mpr ⟨bytes, hbytes, by simp at hlt ⊢; omega⟩
  refine ⟨rfl, ?_, ?_⟩
  · simp only [escapeRecord, Bool.and_eq_true]
    exact fun h ↦ ⟨h.1, hbelow hstack h.2⟩
  · simp only [escapeRecord, Bool.and_eq_true]
    exact fun h ↦ ⟨h.1, h.2.1, hbelow hscalar h.2.2⟩

private theorem virtualCall?_redispatch (f : Func) (ctx : Context)
    (lookahead lookahead' maxSwitchTargets maxSwitchTargets' : Nat) (numbered : Statement × Nat) :
    f.virtualCall? ctx (f.propagate ctx lookahead') maxSwitchTargets' numbered =
      (f.virtualCall? ctx (f.propagate ctx lookahead) maxSwitchTargets numbered).map
        (Option.map (VirtualCall.redispatch maxSwitchTargets')) := by
  have hconstant : isConstantReceiver (f.propagate ctx lookahead') =
      isConstantReceiver (f.propagate ctx lookahead) := rfl
  unfold virtualCall?
  rw [hconstant]
  split
  · split
    · rfl
    · cases f.operandType _ _ with
      | error defect => rfl
      | ok receiverType =>
        simp only [bind, Except.bind]
        split <;> rfl
  · rfl

/-- With lower limits no virtual call is dispatched by a switch more often. -/
theorem virtualCalls_below {maxSwitchTargets maxSwitchTargets' : Nat} {calls : List VirtualCall}
    (hle : maxSwitchTargets ≤ maxSwitchTargets') (lookahead' : Nat)
    (h : f.virtualCalls ctx maxSwitchTargets lookahead = .ok calls) :
    ∃ calls', f.virtualCalls ctx maxSwitchTargets' lookahead' = .ok calls' ∧
      List.Forall₂ VirtualCall.SwitchesNoMore calls calls' := by
  obtain ⟨found, hfound, hcalls⟩ := virtualCalls_eq_ok_iff.mp h
  have hfound' : f.numbered.mapM
      (f.virtualCall? ctx (f.propagate ctx lookahead') maxSwitchTargets') =
        .ok (found.map (Option.map (VirtualCall.redispatch maxSwitchTargets'))) :=
    mapM_eq_ok_map _ (virtualCall?_redispatch f ctx lookahead lookahead' maxSwitchTargets _) hfound
  refine ⟨_, virtualCalls_eq_ok_iff.mpr ⟨_, hfound', rfl⟩, ?_⟩
  rw [List.reduceOption_map, hcalls, List.forall₂_map_right_iff, List.forall₂_same]
  intro call hc
  obtain ⟨s, -, hcall⟩ := exists_of_mem_virtualCalls h hc
  obtain ⟨_, _, _, _, _, -, -, -, -, hrecord⟩ := virtualCall?_eq_ok_some_iff.mp hcall
  have hstrategy : call.strategy = .ofCount call.candidates.size maxSwitchTargets := by
    rw [hrecord]
  refine ⟨rfl, ?_, ?_⟩
  · rw [hstrategy, VirtualCall.redispatch, DispatchStrategy.ofCount_eq_direct_iff,
      DispatchStrategy.ofCount_eq_direct_iff]
  · rw [hstrategy, VirtualCall.redispatch, DispatchStrategy.ofCount_eq_switch_iff,
      DispatchStrategy.ofCount_eq_switch_iff]
    exact fun hs ↦ ⟨hs.1, hs.2.trans hle⟩

end Func

namespace Advisor

/-- With lower thresholds, and the same settings otherwise, the report on an accepted function
claims no more: it has the same allocations, constants, decided branches and virtual calls and the
same sections of specialization and lifetimes; no more allocations are promoted and no more calls
switched; and what is counted behind a branch is the same number up to the lookahead. -/
theorem claimsNoMore_of_below {f : Func} (hv : f.validate = .ok ()) (ctx : Context)
    {c c' : Settings} (h : c.Below c') :
    ∃ r r', (⟨ctx, c⟩ : Advisor).report f = .ok r ∧ (⟨ctx, c'⟩ : Advisor).report f = .ok r' ∧
      r.results.ClaimsNoMore f c c' r'.results := by
  obtain ⟨calls, hcalls⟩ :=
    Func.exists_virtualCalls hv ctx c.maxSwitchTargets c.deadBranchLookahead
  obtain ⟨calls', hcalls', hswitches⟩ :=
    Func.virtualCalls_below h.maxSwitchTargets c'.deadBranchLookahead hcalls
  have hpromotes := f.escapeRecords_below ctx h.stackThreshold h.scalarThreshold
  have hrecounts := f.recounts_propagate ctx c.deadBranchLookahead c'.deadBranchLookahead
  have hpasses : c'.passes = c.passes := by rw [h.same]
  refine ⟨_, _, report_eq_ok ⟨ctx, c⟩ hv, report_eq_ok ⟨ctx, c'⟩ hv, ?_⟩
  simp only [assess, results_eq, hpasses, hcalls, hcalls',
    f.lifetimes_lookahead ctx c.deadBranchLookahead c'.deadBranchLookahead]
  refine ⟨?_, ?_, ?_, rfl, rfl⟩
  · exact Section.rel_ofPass _ _ (isEmpty_eq_of_forall₂ hpromotes) hpromotes
  · refine Section.rel_ofPass _ _ ?_ hrecounts
    rw [Propagation.isEmpty, Propagation.isEmpty,
      isEmpty_eq_of_forall₂ hrecounts.decidedBranches]
    rfl
  · exact Section.rel_ofPass _ _ (isEmpty_eq_of_forall₂ hswitches) hswitches

/-- A function with an array that is only summed up, in a branch that is never taken. -/
def guardedSum : Func where
  name := "guarded_sum"
  parameterTypes := [.abstract "Integer"]
  body := #[
    .literal (.bool false) .bool,
    .branch (.value 1) true 6,
    .call "zeros" [.const (.int 4)] (.container "Vector" [.float]),
    .call "sum" [.value 3] .float,
    .call "show" [.argument 1] .nothing,
    .ret none]

/-- Settings that claim little. -/
def cautious : Settings :=
  { stackThreshold := 16, scalarThreshold := 16, deadBranchLookahead := 2, maxSwitchTargets := 1 }

/-- Of the three statements behind the branch two are counted with a lookahead of two, and all of
them with one of twenty. -/
theorem claimsNoMore_of_below_guardedSum :
    guardedSum.validate = .ok () ∧ cautious.Below {} ∧
      ∃ r r', (⟨.initial, cautious⟩ : Advisor).report guardedSum = .ok r ∧
        (⟨.initial, {}⟩ : Advisor).report guardedSum = .ok r' ∧
        r.results.constants.data?.map (·.decidedBranches) = some [⟨2, true, 2, false, 6⟩] ∧
        r'.results.constants.data?.map (·.decidedBranches) = some [⟨2, true, 3, false, 6⟩] := by
  have hv : guardedSum.validate = .ok () := by decide +kernel
  have hbelow : cautious.Below {} := ⟨rfl, by decide, by decide, by decide, by decide⟩
  obtain ⟨r, r', hr, hr', hclaims⟩ := claimsNoMore_of_below hv .initial hbelow
  have hbranches : r.results.constants.data?.map (·.decidedBranches) =
      some [⟨2, true, 2, false, 6⟩] := by
    obtain rfl := Except.ok.inj ((report_eq_ok ⟨.initial, cautious⟩ hv).symm.trans hr)
    decide +kernel
  refine ⟨hv, hbelow, r, r', hr, hr', hbranches, ?_⟩
  obtain ⟨p, hp, hd⟩ := Option.map_eq_some_iff.mp hbranches
  obtain ⟨p', hp', hrecounts⟩ := hclaims.constants.exists_data? hp
  have hcounts := hrecounts.decidedBranches
  rw [hd, List.forall₂_cons_left_iff] at hcounts
  obtain ⟨d', rest, ⟨hsame, -, hcount⟩, hnil, hd'⟩ := hcounts
  have hrun : guardedSum.deadRun 2 = 3 := by decide +kernel
  rw [hp', Option.map_some, hd', List.forall₂_nil_left_iff.mp hnil, hsame, hcount, hrun]
  rfl

end Advisor
end SsaAdvisor
