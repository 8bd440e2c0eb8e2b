import Mathlib.Data.List.ReduceOption
import SsaAdvisor.Proofs.Overlap
import SsaAdvisor.Proofs.Traversal
import SsaAdvisor.VirtualCall

/-!
# Dispatch of virtual calls

At run time the receiver of a virtual call has some concrete subtype of its declared type, and the
call arrives at a registered method that accepts it. Every such method is a candidate: its receiver
type and the declared type have the concrete type in common, so they intersect. What is dispatched
directly or by a switch therefore never misses a method.
-/

namespace SsaAdvisor

/-- The strategy is direct exactly if there is one candidate. -/
theorem DispatchStrategy.ofCount_eq_direct_iff {count maxSwitchTargets : Nat} :
    ofCount count maxSwitchTargets = .direct ↔ count = 1 := by
  unfold ofCount
  split
  · next h => simp [h]
  · next h => split <;> simp [h]

/-- The candidates are the registered methods whose receiver may share a value with the type. -/
theorem Context.mem_candidates {ctx : Context} {callee : String} {receiver : Ty} {s : Signature} :
    s ∈ (ctx.candidates callee receiver).toList ↔
      s ∈ (ctx.methods.lookup? callee).getD [] ∧
        ∃ ty, s.receiver? = some ty ∧ ctx.hierarchy.intersects ty receiver = true := by
  rw [candidates, SortedSet.mem_ofList, List.mem_filter, Option.any_eq_true]

namespace VirtualCall

/-- Whether the call can arrive at a method with a receiver of the given type. -/
structure ArrivesAt (call : VirtualCall) (ctx : Context) (receiver : Ty) (s : Signature) :
    Prop where
  isConcrete : receiver.isConcrete = true
  possible : ctx.hierarchy.isSubtype receiver call.receiverType = true
  registered : s ∈ (ctx.methods.lookup? call.callee).getD []
  accepts : ∃ ty, s.receiver? = some ty ∧ ctx.hierarchy.isSubtype receiver ty = true

end VirtualCall

namespace Func

variable {f : Func} {ctx : Context} {p : Propagation} {s : Statement} {call : VirtualCall}
  {calls : List VirtualCall} {maxSwitchTargets lookahead position : Nat}

/-- A virtual call is a call whose receiver is not a constant of the body and has a type that is not
concrete. -/
theorem virtualCall?_eq_ok_some_iff :
    f.virtualCall? ctx p maxSwitchTargets (s, position) = .ok (some call) ↔
      ∃ callee receiver args resultType receiverType,
        s = .call callee (receiver :: args) resultType ∧ isConstantReceiver p receiver = false ∧
        f.operandType position receiver = .ok receiverType ∧ receiverType.isConcrete = false ∧
        call = {
          index := position
          callee
          receiverType
          candidates := ctx.candidates callee receiverType
          strategy := .ofCount (ctx.candidates callee receiverType).size maxSwitchTargets
          symbolKnown := (ctx.methods.lookup? callee).isSome
          inLoop := f.inLoop position } := by
  constructor
  · intro h
    unfold virtualCall? at h
    split at h
    · next callee receiver args resultType _ hpair =>
      obtain ⟨rfl, rfl⟩ := Prod.mk.inj hpair
      split at h
      · simp at h
      · next hk =>
        cases ht : f.operandType position receiver with
        | error defect => simp [ht, bind, Except.bind] at h
        | ok receiverType =>
          simp only [ht, bind, Except.bind] at h
          split at h
          · simp [pure, Except.pure] at h
          · next hn =>
            refine ⟨callee, receiver, args, resultType, receiverType, rfl, by simpa using hk, ht,
              by simpa using hn, ?_⟩
            simpa [pure, Except.pure, eq_comm] using h
    · simp at h
  · rintro ⟨callee, receiver, args, resultType, receiverType, rfl, hk, ht, hn, rfl⟩
    simp [virtualCall?, hk, ht, hn, bind, Except.bind, pure, Except.pure]

/-- The virtual calls are what the search finds at the statements, where it finds something. -/
theorem virtualCalls_eq_ok_iff :
    f.virtualCalls ctx maxSwitchTargets lookahead = .ok calls ↔
      ∃ found, f.numbered.mapM (f.virtualCall? ctx (f.propagate ctx lookahead) maxSwitchTargets) =
        .ok found ∧ found.reduceOption = calls := by
  unfold virtualCalls
  cases hf : f.numbered.mapM (f.virtualCall? ctx (f.propagate ctx lookahead) maxSwitchTargets) with
  | error defect => simp [hf, bind, Except.bind]
  | ok found => simp [hf, bind, Except.bind, pure, Except.pure]

private theorem exists_virtualCall? (hv : f.validate = .ok ())
    (hs : f.statement? position = some s) :
    ∃ found, f.virtualCall? ctx p maxSwitchTargets (s, position) = .ok found := by
  unfold virtualCall?
  split
  · next callee receiver args resultType _ hpair =>
    obtain ⟨rfl, rfl⟩ := Prod.mk.inj hpair
    split
    · exact ⟨none, rfl⟩
    · have hm : receiver ∈ (Statement.call callee (receiver :: args) resultType).operands :=
        List.mem_cons_self
      obtain ⟨ty, hty⟩ := exists_operandType_of_validate hv hs hm
      simp only [hty, bind, Except.bind]
      split
      · exact ⟨none, rfl⟩
      · exact ⟨_, rfl⟩
  · exact ⟨none, rfl⟩

/-- In an accepted function the search for virtual calls does not fail. -/
theorem exists_virtualCalls (hv : f.validate = .ok ()) (ctx : Context)
    (maxSwitchTargets lookahead : Nat) :
    ∃ calls, f.virtualCalls ctx maxSwitchTargets lookahead = .ok calls := by
  have hstep : ∀ numbered ∈ f.numbered, ∃ found,
      f.virtualCall? ctx (f.propagate ctx lookahead) maxSwitchTargets numbered = .ok found :=
    fun _ hm ↦ exists_virtualCall? hv (mem_numbered.mp hm)
  obtain ⟨found, hf⟩ := exists_mapM_eq_ok hstep
  exact ⟨found.reduceOption, virtualCalls_eq_ok_iff.mpr ⟨found, hf, rfl⟩⟩

/-- Each virtual call that is found stands at its statement. -/
theorem exists_of_mem_virtualCalls (h : f.virtualCalls ctx maxSwitchTargets lookahead = .ok calls)
    (hc : call ∈ calls) :
    ∃ s, f.statement? call.index = some s ∧
      f.virtualCall? ctx (f.propagate ctx lookahead) maxSwitchTargets (s, call.index) =
        .ok (some call) := by
  obtain ⟨found, hf, rfl⟩ := virtualCalls_eq_ok_iff.mp h
  rw [List.reduceOption_mem_iff] at hc
  obtain ⟨⟨s, position⟩, hm, hcall⟩ := exists_of_mem_mapM hf hc
  obtain ⟨_, _, _, _, _, -, -, -, -, rfl⟩ := virtualCall?_eq_ok_some_iff.mp hcall
  exact ⟨s, mem_numbered.mp hm, hcall⟩

/-- The virtual calls are in ascending order of their statements. -/
theorem pairwise_virtualCalls (h : f.virtualCalls ctx maxSwitchTargets lookahead = .ok calls) :
    calls.Pairwise (·.index < ·.index) := by
  obtain ⟨found, hf, rfl⟩ := virtualCalls_eq_ok_iff.mp h
  rw [reduceOption_of_mapM_eq_ok hf]
  apply f.pairwise_filterMap_numbered
  intro s position call hcall
  cases hk : f.virtualCall? ctx (f.propagate ctx lookahead) maxSwitchTargets (s, position) with
  | error defect => simp [hk, Except.toOption] at hcall
  | ok found =>
    obtain rfl : found = some call := by simpa [hk, Except.toOption] using hcall
    obtain ⟨_, _, _, _, _, -, -, -, -, rfl⟩ := virtualCall?_eq_ok_some_iff.mp hk
    rfl

/-- Every method at which a virtual call can arrive is one of its candidates. -/
theorem mem_candidates_of_arrivesAt
    (h : f.virtualCalls ctx maxSwitchTargets lookahead = .ok calls) (hc : call ∈ calls)
    {receiver : Ty} {m : Signature} (ha : call.ArrivesAt ctx receiver m) :
    m ∈ call.candidates.toList := by
  obtain ⟨s, -, hcall⟩ := exists_of_mem_virtualCalls h hc
  obtain ⟨callee, _, _, _, receiverType, -, -, -, -, hrecord⟩ :=
    virtualCall?_eq_ok_some_iff.mp hcall
  obtain ⟨hconcrete, hpossible, hregistered, ty, hty, haccepts⟩ := ha
  rw [hrecord] at hpossible hregistered ⊢
  exact Context.mem_candidates.mpr
    ⟨hregistered, ty, hty, Hierarchy.intersects_of_isSubtype hconcrete haccepts hpossible⟩

private theorem exists_candidate_of_direct
    (h : f.virtualCalls ctx maxSwitchTargets lookahead = .ok calls) (hc : call ∈ calls)
    (hd : call.strategy = .direct) : ∃ target, call.candidates.toList = [target] := by
  obtain ⟨s, -, hcall⟩ := exists_of_mem_virtualCalls h hc
  obtain ⟨_, _, _, _, _, -, -, -, -, hrecord⟩ := virtualCall?_eq_ok_some_iff.mp hcall
  rw [hrecord] at hd ⊢
  exact List.length_eq_one_iff.mp (DispatchStrategy.ofCount_eq_direct_iff.mp hd)

/-- In an accepted function every virtual call that is reported has all methods at which it can
arrive among its candidates. So a direct call has no other method to arrive at, whatever the
receiver, and a switch has a case for every receiver that some method accepts. -/
theorem virtualCalls_complete (hv : f.validate = .ok ()) (ctx : Context)
    (maxSwitchTargets lookahead : Nat) :
    ∃ calls, f.virtualCalls ctx maxSwitchTargets lookahead = .ok calls ∧
      ∀ call ∈ calls,
        (∀ receiver m, call.ArrivesAt ctx receiver m → m ∈ call.candidates.toList) ∧
        (call.strategy = .direct → ∃ target, call.candidates.toList = [target] ∧
          ∀ receiver m, call.ArrivesAt ctx receiver m → m = target) ∧
        (call.strategy = .switch → ∀ receiver m, call.ArrivesAt ctx receiver m →
          ∃ target ∈ call.candidates.toList, call.ArrivesAt ctx receiver target) := by
  obtain ⟨calls, h⟩ := exists_virtualCalls hv ctx maxSwitchTargets lookahead
  refine ⟨calls, h, ?_⟩
  intro call hc
  have hcover : ∀ receiver m, call.ArrivesAt ctx receiver m → m ∈ call.candidates.toList :=
    fun _ _ ↦ mem_candidates_of_arrivesAt h hc
  refine ⟨hcover, ?_, ?_⟩
  · intro hd
    obtain ⟨target, ht⟩ := exists_candidate_of_direct h hc hd
    refine ⟨target, ht, ?_⟩
    intro receiver m ha
    have hm := hcover receiver m ha
    rwa [ht, List.mem_singleton] at hm
  · intro _ receiver m ha
    exact ⟨m, hcover receiver m ha, ha⟩

/-- A function that shows an integer of unknown width. -/
def showInteger : Func where
  name := "show_integer"
  parameterTypes := [.abstract "Integer"]
  body := #[.call "show" [.argument 1] .nothing, .ret none]

/-- A program with one method for signed integers and others for floats and texts. -/
def shows : Context :=
  { Context.initial with
    methods := MethodTable.empty.registerAll
      [⟨"show", [.abstract "Signed"]⟩, ⟨"show", [.abstract "AbstractFloat"]⟩, ⟨"show", [.string]⟩] }

/-- A call on an integer arrives at the one method that is left, if it arrives anywhere. -/
theorem virtualCalls_complete_showInteger :
    showInteger.validate = .ok () ∧
      ∃ call, showInteger.virtualCalls shows 4 20 = .ok [call] ∧ call.strategy = .direct ∧
        call.ArrivesAt shows .int ⟨"show", [.abstract "Signed"]⟩ ∧
        ∀ receiver m, call.ArrivesAt shows receiver m → m = ⟨"show", [.abstract "Signed"]⟩ := by
  have hv : showInteger.validate = .ok () := by decide +kernel
  have hcalls : showInteger.virtualCalls shows 4 20 =
      .ok [⟨1, "show", .abstract "Integer", ⟨[⟨"show", [.abstract "Signed"]⟩]⟩, .direct, true,
        false⟩] := by decide +kernel
  refine ⟨hv, _, hcalls, rfl,
    ⟨rfl, by decide +kernel, by decide +kernel, _, rfl, by decide +kernel⟩, ?_⟩
  intro receiver m ha
  obtain ⟨calls, h, hall⟩ := virtualCalls_complete hv shows 4 20
  obtain rfl := Except.ok.inj (hcalls.symm.trans h)
  obtain ⟨target, ht, honly⟩ := (hall _ List.mem_cons_self).2.1 rfl
  rw [honly receiver m ha, ← List.singleton_inj.mp ht]

end Func
end SsaAdvisor
