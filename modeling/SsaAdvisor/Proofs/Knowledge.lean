import SsaAdvisor.Proofs.Dispatch
import SsaAdvisor.Proofs.ReleasePoint
import SsaAdvisor.Proofs.Sweep
import SsaAdvisor.Specialization

/-!
# More knowledge about globals

A context may learn the values of further immutable globals. The sweep then keeps every constant it
had found, by induction over the statements, so branches stay decided. Fewer jumps are live, fewer
positions are join points, and a release that was admitted stays admitted, so the first one can only
move forward. Virtual calls with a receiver that is now constant are no longer reported, and what
does not look at globals stays the same.
-/

namespace SsaAdvisor

/-- A context that has learned the values of further globals and is otherwise the same. -/
structure Context.Extends (ctx' ctx : Context) : Prop where
  same : ∃ globals, ctx' = { ctx with globalConstants := globals }
  globals : ∀ symbol c, ctx.globalConstant? symbol = some c → ctx'.globalConstant? symbol = some c

private theorem Context.extends_withGlobalConstant {ctx : Context} {symbol : String}
    (h : ctx.globalConstant? symbol = none) (value : Constant) :
    (ctx.withGlobalConstant symbol value).Extends ctx := by
  refine ⟨⟨_, rfl⟩, ?_⟩
  intro other c hc
  have hne : other ≠ symbol := by
    rintro rfl
    simp [h] at hc
  rw [globalConstant?_withGlobalConstant, if_neg hne, hc]

/-- A later state keeps an earlier one if constants stay constants and known ones stay the same. -/
structure ValueState.KeptBy (before after : ValueState) : Prop where
  constant : ∀ c, before.constant? = some c → after.constant? = some c
  isConstant : before.isConstant = true → after.isConstant = true

namespace ValueState.KeptBy

/-- Every state keeps itself. -/
theorem refl (state : ValueState) : state.KeptBy state := ⟨fun _ ↦ id, id⟩

private theorem of_fixed {state : ValueState} (h : state.isConstant = true) : fixed.KeptBy state :=
  ⟨fun _ hc ↦ (nomatch hc), fun _ ↦ h⟩

private theorem of_varying (state : ValueState) : varying.KeptBy state :=
  ⟨fun _ h ↦ (nomatch h), fun h ↦ (nomatch h)⟩

end ValueState.KeptBy

namespace ValueStates

variable {ctx ctx' : Context} {states states' : ValueStates} {c : Constant}

/-- Later states keep earlier ones if they do so at every position. -/
def KeptBy (states states' : ValueStates) : Prop :=
  ∀ i state, states.at? i = some state → ∃ state', states'.at? i = some state' ∧ state.KeptBy state'

namespace KeptBy

/-- States that are kept are so before each position. -/
theorem before (h : states.KeptBy states') (position : Nat) :
    (states.before position).KeptBy (states'.before position) := by
  intro i state hs
  rw [at?_before] at hs ⊢
  split at hs
  · next hlt =>
    rw [if_pos hlt]
    exact h i state hs
  · simp at hs

/-- States stay kept if a state and one that keeps it are added at the same position. -/
theorem push (h : states.KeptBy states') (hsize : states.size = states'.size)
    {state state' : ValueState} (hs : state.KeptBy state') :
    ValueStates.KeptBy (states.push state) (states'.push state') := by
  intro i found hfound
  rw [at?_push] at hfound ⊢
  rw [← hsize]
  split at hfound
  · next hi =>
    obtain rfl := Option.some.inj hfound
    exact ⟨state', if_pos hi, hs⟩
  · next hi =>
    rw [if_neg hi]
    exact h i found hfound

/-- What an operand resolves to is kept. -/
theorem resolve? (h : states.KeptBy states') (op : Operand)
    (hc : states.resolve? op = some c) :
    states'.resolve? op = some c := by
  cases op with
  | value position =>
    obtain ⟨state, hs, hc⟩ := Option.bind_eq_some_iff.mp hc
    obtain ⟨state', hs', hkept⟩ := h position state hs
    exact Option.bind_eq_some_iff.mpr ⟨state', hs', hkept.constant c hc⟩
  | argument position => exact (nomatch hc)
  | const value => exact hc

/-- What a call folds to is kept. -/
theorem fold? (h : states.KeptBy states') {callee : String} {args : List Operand}
    (hc : states.fold? callee args = some c) : states'.fold? callee args = some c := by
  obtain ⟨op, cs, hop, hargs, hcs⟩ := fold?_eq_some.mp hc
  exact fold?_eq_some.mpr ⟨op, cs, hop, mapM_mono (fun op _ _ ↦ h.resolve? op) hargs, hcs⟩

/-- What a statement is found to define is kept. -/
theorem transfer (h : states.KeptBy states') (hctx : ctx'.Extends ctx) (s : Statement) :
    (states.transfer ctx s).KeptBy (states'.transfer ctx' s) := by
  cases s with
  | globalRead symbol ty isImmutable =>
    cases isImmutable with
    | false => exact .refl _
    | true =>
      cases hg : ctx.globalConstant? symbol with
      | some c => simpa [ValueStates.transfer, hg, hctx.globals symbol c hg] using .refl _
      | none =>
        -- it was a constant without a value, and stays a constant with or without one
        simp only [ValueStates.transfer, hg]
        split
        · exact .of_fixed rfl
        · exact .refl _
  | call callee args ty =>
    cases hf : states.fold? callee args with
    | some c => simpa [ValueStates.transfer, hf, h.fold? hf] using .refl _
    | none => simpa [ValueStates.transfer, hf] using .of_varying _
  | _ => exact .refl _

end KeptBy

private theorem keptBy_ofStatements (h : ctx'.Extends ctx) (statements : List Statement) :
    (ofStatements ctx statements).KeptBy (ofStatements ctx' statements) := by
  induction statements using List.reverseRecOn with
  | nil => exact fun i state hs ↦ by simp [ofStatements, at?] at hs
  | append_singleton front s ih =>
    rw [ofStatements_append_singleton, ofStatements_append_singleton]
    exact ih.push (by rw [size_ofStatements, size_ofStatements]) (ih.transfer h s)

end ValueStates

/-- The lifetime of the same allocation with the same uses, in which a release that was offered is
offered at the same position or in front of it. -/
structure Lifetime.ReleasedNoLater (l l' : Lifetime) : Prop where
  index : l'.index = l.index
  callee : l'.callee = l.callee
  lastUse : l'.lastUse = l.lastUse
  conflicts : l'.conflicts = l.conflicts
  releaseBefore : ∀ k, l.releaseBefore = some k → ∃ k' ≤ k, l'.releaseBefore = some k'

namespace Func

variable {f : Func} {ctx ctx' : Context} {lookahead maxSwitchTargets : Nat}

/-- With more knowledge the sweep over a body keeps every state. -/
theorem keptBy_valueStates (h : ctx'.Extends ctx) (f : Func) :
    (f.valueStates ctx).KeptBy (f.valueStates ctx') := by
  rw [valueStates_eq, valueStates_eq]
  exact ValueStates.keptBy_ofStatements h _

private theorem constant?_of_extends (h : ctx'.Extends ctx) {i : Nat} {c : Constant}
    (hc : (f.propagate ctx lookahead).constant? i = some c) :
    (f.propagate ctx' lookahead).constant? i = some c :=
  (keptBy_valueStates h f).resolve? (.value i) hc

private theorem isConstant_of_extends (h : ctx'.Extends ctx) {i : Nat}
    (hc : (f.propagate ctx lookahead).isConstant i = true) :
    (f.propagate ctx' lookahead).isConstant i = true := by
  obtain ⟨state, hs, hc⟩ := (Option.any_eq_true _ _).mp hc
  obtain ⟨state', hs', hkept⟩ := keptBy_valueStates h f i state hs
  exact (Option.any_eq_true _ _).mpr ⟨state', hs', hkept.isConstant hc⟩

/-- A decided branch stays decided in the same way. -/
theorem decidedBranches_of_extends (h : ctx'.Extends ctx) {d : DecidedBranch}
    (hd : d ∈ (f.propagate ctx lookahead).decidedBranches) :
    d ∈ (f.propagate ctx' lookahead).decidedBranches := by
  obtain ⟨condition, fallthroughIsTrue, hs, hk, hj, hcount⟩ := mem_decidedBranches.mp hd
  exact mem_decidedBranches.mpr ⟨condition, fallthroughIsTrue, hs,
    ((keptBy_valueStates h f).before _).resolve? _ hk, hj, hcount⟩

private theorem liveArms_of_extends (h : ctx'.Extends ctx) {position : Nat} {arm : Arm}
    (hlive : (f.propagate ctx' lookahead).liveArms position arm) :
    (f.propagate ctx lookahead).liveArms position arm := by
  intro harm
  by_contra hdead
  obtain ⟨d, hd, rfl, hj⟩ := exists_of_jumpIsDead (Bool.not_eq_false _ ▸ hdead)
  have hstays := jumpIsDead_of_mem (decidedBranches_of_extends h hd) hj
  exact Bool.noConfusion (hstays.symm.trans (hlive harm))

private theorem liveJumps_of_extends (h : ctx'.Extends ctx) {jump : Jump}
    (hj : jump ∈ f.liveJumps (f.propagate ctx' lookahead)) :
    jump ∈ f.liveJumps (f.propagate ctx lookahead) := by
  obtain ⟨hlive, hto⟩ := mem_liveJumps.mp hj
  exact mem_liveJumps.mpr ⟨liveArms_of_extends h hlive, hto⟩

section ReleasePoint

variable {jumps jumps' : List Jump} {joins joins' : StatementSet} {allocation lastUse k : Nat}

private theorem admitsRelease_of_subset (hjumps : jumps' ⊆ jumps)
    (hjoins : ∀ position, joins'.contains position = true → joins.contains position = true)
    (h : f.admitsRelease jumps joins allocation k = true) :
    f.admitsRelease jumps' joins' allocation k = true := by
  simp only [admitsRelease, Bool.and_eq_true, Bool.not_eq_true', isBypassed,
    List.any_eq_false] at h ⊢
  obtain ⟨⟨hjoin, hbypassed⟩, hloops⟩ := h
  refine ⟨⟨?_, fun jump hm ↦ hbypassed jump (hjumps hm)⟩, hloops⟩
  rw [← Bool.not_eq_true] at hjoin ⊢
  exact fun hj ↦ hjoin (hjoins k hj)

/-- With fewer jumps and join points the first release that is admitted does not move back. -/
theorem releasePoint?_of_subset (hjumps : jumps' ⊆ jumps)
    (hjoins : ∀ position, joins'.contains position = true → joins.contains position = true)
    (h : f.releasePoint? jumps joins allocation lastUse = some k) :
    ∃ k' ≤ k, f.releasePoint? jumps' joins' allocation lastUse = some k' := by
  obtain ⟨ret, hret, hfind⟩ := Option.bind_eq_some_iff.mp h
  obtain ⟨hadmits, hm, -⟩ := List.find?_range'_eq_some.mp hfind
  have hstays := admitsRelease_of_subset hjumps hjoins hadmits
  have hsome := List.find?_isSome.mpr ⟨k, hm, hstays⟩
  obtain ⟨k', hk'⟩ := Option.isSome_iff_exists.mp hsome
  refine ⟨k', ?_, Option.bind_eq_some_iff.mpr ⟨ret, hret, hk'⟩⟩
  obtain ⟨-, -, hfirst⟩ := List.find?_range'_eq_some.mp hk'
  by_contra hlt
  have hno := hfirst k (List.mem_range'_1.mp hm).1 (Nat.lt_of_not_le hlt)
  rw [hstays] at hno
  exact Bool.noConfusion hno

end ReleasePoint

private theorem allocationSites_of_extends (h : ctx'.Extends ctx) :
    f.allocationSites ctx' = f.allocationSites ctx := by
  obtain ⟨globals, rfl⟩ := h.same
  rfl

private theorem forwardUses_of_extends (h : ctx'.Extends ctx) (value : Nat) :
    f.forwardUses ctx' value = f.forwardUses ctx value := by
  obtain ⟨globals, rfl⟩ := h.same
  rfl

private theorem escapeRecords_of_extends (h : ctx'.Extends ctx)
    (stackThreshold scalarThreshold : Nat) :
    f.escapeRecords ctx' stackThreshold scalarThreshold =
      f.escapeRecords ctx stackThreshold scalarThreshold := by
  have hrecord : f.escapeRecord ctx' stackThreshold scalarThreshold =
      f.escapeRecord ctx stackThreshold scalarThreshold := by
    funext site
    simp only [escapeRecord, captures, forwardUses_of_extends h]
  rw [escapeRecords, escapeRecords, allocationSites_of_extends h, hrecord]

private theorem lifetime_of_extends (h : ctx'.Extends ctx) {jumps jumps' : List Jump}
    {joins joins' : StatementSet} (hjumps : jumps' ⊆ jumps)
    (hjoins : ∀ position, joins'.contains position = true → joins.contains position = true)
    (site : AllocationSite) :
    (f.lifetime ctx jumps joins site).ReleasedNoLater (f.lifetime ctx' jumps' joins' site) := by
  simp only [lifetime, forwardUses_of_extends h]
  refine ⟨rfl, rfl, rfl, rfl, ?_⟩
  intro k hk
  split at hk
  · next hnone =>
    obtain ⟨k', hle, hk'⟩ := releasePoint?_of_subset hjumps hjoins hk
    exact ⟨k', hle, (if_pos hnone).trans hk'⟩
  · simp at hk

/-- With more knowledge every lifetime stays, and no release is offered later. -/
theorem lifetimes_of_extends (h : ctx'.Extends ctx) :
    List.Forall₂ Lifetime.ReleasedNoLater (f.lifetimes ctx lookahead)
      (f.lifetimes ctx' lookahead) := by
  have hjumps : f.liveJumps (f.propagate ctx' lookahead) ⊆
      f.liveJumps (f.propagate ctx lookahead) := fun _ ↦ liveJumps_of_extends h
  rw [lifetimes, lifetimes, allocationSites_of_extends h, List.forall₂_map_left_iff,
    List.forall₂_map_right_iff, List.forall₂_same]
  intro site _
  apply lifetime_of_extends h hjumps
  intro position hm
  obtain ⟨hm, hbounds⟩ := StatementSet.contains_ofList.mp hm
  exact StatementSet.contains_ofList.mpr ⟨List.map_subset _ hjumps hm, hbounds⟩

private theorem virtualCall?_of_extends (h : ctx'.Extends ctx) (numbered : Statement × Nat) :
    f.virtualCall? ctx' (f.propagate ctx' lookahead) maxSwitchTargets numbered = .ok none ∨
      f.virtualCall? ctx' (f.propagate ctx' lookahead) maxSwitchTargets numbered =
        f.virtualCall? ctx (f.propagate ctx lookahead) maxSwitchTargets numbered := by
  have hconstant : ∀ receiver, isConstantReceiver (f.propagate ctx lookahead) receiver = true →
      isConstantReceiver (f.propagate ctx' lookahead) receiver = true := by
    intro receiver hr
    obtain ⟨i, hi, hc⟩ := (Option.any_eq_true _ _).mp hr
    exact (Option.any_eq_true _ _).mpr ⟨i, hi, isConstant_of_extends h hc⟩
  generalize f.propagate ctx' lookahead = p' at hconstant ⊢
  obtain ⟨globals, rfl⟩ := h.same
  unfold virtualCall?
  split
  · next callee receiver args resultType position =>
    cases hr' : isConstantReceiver p' receiver with
    | true => exact .inl rfl
    | false =>
      have hr : isConstantReceiver (f.propagate ctx lookahead) receiver = false := by
        rw [← Bool.not_eq_true] at hr' ⊢
        exact fun hr ↦ hr' (hconstant receiver hr)
      rw [hr]
      exact .inr rfl
  · exact .inl rfl

/-- With more knowledge some virtual calls are no longer reported and the others are unchanged. -/
theorem virtualCalls_of_extends (h : ctx'.Extends ctx) {calls : List VirtualCall}
    (hcalls : f.virtualCalls ctx maxSwitchTargets lookahead = .ok calls) :
    ∃ calls', f.virtualCalls ctx' maxSwitchTargets lookahead = .ok calls' ∧
      calls'.Sublist calls := by
  obtain ⟨found, hfound, rfl⟩ := virtualCalls_eq_ok_iff.mp hcalls
  obtain ⟨found', hfound', hsub⟩ := exists_mapM_sublist hfound
    (f.virtualCall? ctx' (f.propagate ctx' lookahead) maxSwitchTargets)
    fun numbered _ ↦ virtualCall?_of_extends h numbered
  exact ⟨_, virtualCalls_eq_ok_iff.mpr ⟨found', hfound', rfl⟩, hsub⟩

private theorem ofSignature_of_extends (h : ctx'.Extends ctx) (signature : Signature) :
    Specialization.ofSignature ctx' signature = Specialization.ofSignature ctx signature := by
  obtain ⟨globals, rfl⟩ := h.same
  rfl

/-- To supply the value of a global that has none takes nothing back: constants stay, and known ones
stay the same; decided branches stay decided in the same way; virtual calls are reported unchanged
or no longer; and releases are offered at the same positions or in front of them. Verdicts on
allocations and the needs of specialization are the same. -/
theorem withGlobalConstant_retracts_nothing (hv : f.validate = .ok ()) {symbol : String}
    (hs : ctx.globalConstant? symbol = none) (value : Constant)
    (lookahead maxSwitchTargets stackThreshold scalarThreshold : Nat) :
    (∀ i c, (f.propagate ctx lookahead).constant? i = some c →
        (f.propagate (ctx.withGlobalConstant symbol value) lookahead).constant? i = some c) ∧
      (∀ i, (f.propagate ctx lookahead).isConstant i = true →
        (f.propagate (ctx.withGlobalConstant symbol value) lookahead).isConstant i = true) ∧
      (f.propagate ctx lookahead).decidedBranches ⊆
        (f.propagate (ctx.withGlobalConstant symbol value) lookahead).decidedBranches ∧
      (∃ calls calls', f.virtualCalls ctx maxSwitchTargets lookahead = .ok calls ∧
        f.virtualCalls (ctx.withGlobalConstant symbol value) maxSwitchTargets lookahead =
          .ok calls' ∧
        calls'.Sublist calls) ∧
      List.Forall₂ Lifetime.ReleasedNoLater (f.lifetimes ctx lookahead)
        (f.lifetimes (ctx.withGlobalConstant symbol value) lookahead) ∧
      f.escapeRecords (ctx.withGlobalConstant symbol value) stackThreshold scalarThreshold =
        f.escapeRecords ctx stackThreshold scalarThreshold ∧
      Specialization.ofSignature (ctx.withGlobalConstant symbol value) f.signature =
        Specialization.ofSignature ctx f.signature := by
  have h := Context.extends_withGlobalConstant hs value
  obtain ⟨calls, hcalls⟩ := exists_virtualCalls hv ctx maxSwitchTargets lookahead
  obtain ⟨calls', hcalls', hsub⟩ := virtualCalls_of_extends h hcalls
  exact ⟨fun _ _ ↦ constant?_of_extends h, fun _ ↦ isConstant_of_extends h,
    fun _ ↦ decidedBranches_of_extends h, ⟨calls, calls', hcalls, hcalls', hsub⟩,
    lifetimes_of_extends h, escapeRecords_of_extends h _ _, ofSignature_of_extends h _⟩

/-- A function whose branch and whose dynamic call depend on a flag. -/
def flagged : Func where
  name := "flagged"
  parameterTypes := []
  body := #[
    .globalRead "QUIET" .bool true,
    .call "!" [.value 1] .top,
    .call "malloc" [.const (.int 64)] (.concrete "Ptr"),
    .branch (.value 2) true 6,
    .call "unsafe_load" [.value 3] .int,
    .call "show" [.value 2] .nothing,
    .ret none]

/-- With the flag known the allocation of the function is released no later than without. -/
theorem withGlobalConstant_retracts_nothing_flagged :
    flagged.validate = .ok () ∧ Context.initial.globalConstant? "QUIET" = none ∧
      flagged.lifetimes .initial 20 = [⟨3, "malloc", 5, [], some 7⟩] ∧
      ∃ l, flagged.lifetimes (Context.initial.withGlobalConstant "QUIET" (.bool false)) 20 = [l] ∧
        l.lastUse = 5 ∧ ∃ k ≤ 7, l.releaseBefore = some k := by
  have hv : flagged.validate = .ok () := by decide +kernel
  have hs : Context.initial.globalConstant? "QUIET" = none := by decide +kernel
  have hl : flagged.lifetimes .initial 20 = [⟨3, "malloc", 5, [], some 7⟩] := by decide +kernel
  obtain ⟨-, -, -, -, hlifetimes, -, -⟩ :=
    withGlobalConstant_retracts_nothing hv hs (.bool false) 20 4 4096 256
  rw [hl, List.forall₂_cons_left_iff] at hlifetimes
  obtain ⟨l, _, hkept, hnil, hl'⟩ := hlifetimes
  rw [List.forall₂_nil_left_iff.mp hnil] at hl'
  exact ⟨hv, hs, hl, l, hl', hkept.lastUse, hkept.releaseBefore 7 rfl⟩

end Func
end SsaAdvisor
