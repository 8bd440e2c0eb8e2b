import Mathlib.Data.Set.Card
import SsaAdvisor.Proofs.Sweep

/-!
# The meaning of values

Apart from any sweep, a value means a constant if its statement is a literal, a read of an immutable
global binding that the context supplies, or a call of an operator with a result on what its
operands mean. An operand that names a value means something only where the value is defined by an
earlier statement, so meanings are well founded. Main statement: propagation finds the meaning of
every value, and lists the constants and the decided branches accordingly.
-/

namespace SsaAdvisor

namespace Func

mutual
/-- The constant that the value at a position means. -/
def meaning? (f : Func) (ctx : Context) (position : Nat) : Option Constant :=
  match f.statement? position with
  | some (.literal c _) => some c
  | some (.globalRead symbol _ true) => ctx.globalConstant? symbol
  | some (.call callee args _) => do
    let op ← Operator.ofCallee? callee
    op.evaluate? (← args.mapM (f.operandMeaning? ctx position))
  | _ => none
termination_by (position, 1)

/-- The constant that an operand of the statement at a position means: a value only means something
to the statements behind it. -/
def operandMeaning? (f : Func) (ctx : Context) (position : Nat) : Operand → Option Constant
  | .const c => some c
  | .value i => if i < position then f.meaning? ctx i else none
  | .argument _ => none
termination_by (position, 0)
end

/-- Whether the statement at a position reads an immutable global binding that the context does not
supply. -/
def ReadsUnsupplied (f : Func) (ctx : Context) (position : Nat) : Prop :=
  ∃ symbol ty, f.statement? position = some (.globalRead symbol ty true) ∧
    ctx.globalConstant? symbol = none

end Func

/-- A propagation that tells the meaning of every value: its constants are the meanings, and its
records and decided branches list them in order, each once. -/
structure Propagation.Tells (p : Propagation) (f : Func) (ctx : Context) (lookahead : Nat) :
    Prop where
  constant? : ∀ i, p.constant? i = f.meaning? ctx i
  fixed : ∀ i, p.states.at? i = some .fixed ↔ f.ReadsUnsupplied ctx i
  isSome_at? : ∀ i, (p.states.at? i).isSome = (f.statement? i).isSome
  records_ascending : p.records.Pairwise (·.index < ·.index)
  mem_records : ∀ r, r ∈ p.records ↔
    ((∃ c, f.meaning? ctx r.index = some c) ∨ f.ReadsUnsupplied ctx r.index) ∧
      r.value = f.meaning? ctx r.index ∧ ∃ s, f.statement? r.index = some s ∧
        r.isGlobalImmutable = (s matches .globalRead ..) ∧ r.folded = (s matches .call ..)
  foldedCalls : p.foldedCalls = {i | ∃ callee args resultType c,
    f.statement? i = some (.call callee args resultType) ∧ f.meaning? ctx i = some c}.ncard
  decidedBranches_ascending : p.decidedBranches.Pairwise (·.index < ·.index)
  mem_decidedBranches : ∀ d, d ∈ p.decidedBranches ↔
    ∃ condition fallthroughIsTrue truth,
      f.statement? d.index = some (.branch condition fallthroughIsTrue d.target) ∧
      f.operandMeaning? ctx d.index condition = some (.bool truth) ∧
      d.eliminatedArm = !truth ∧ d.jumpIsDead = (truth == fallthroughIsTrue) ∧
      d.statementsEliminated = f.countDead lookahead d.index

private theorem ValueStates.transfer_eq_fixed_iff {ctx : Context} {states : ValueStates}
    {s : Statement} :
    states.transfer ctx s = .fixed ↔
      ∃ symbol ty, s = .globalRead symbol ty true ∧ ctx.globalConstant? symbol = none := by
  cases s with
  | globalRead symbol ty isImmutable =>
    cases isImmutable with
    | false => simp [transfer]
    | true => cases hg : ctx.globalConstant? symbol <;> simp [transfer, hg]
  | call callee args ty => cases hf : states.fold? callee args <;> simp [transfer, hf]
  | _ => simp [transfer]

private theorem Propagation.isConstant_iff {p : Propagation} {i : Nat} :
    p.isConstant i = true ↔ (∃ c, p.constant? i = some c) ∨ p.states.at? i = some .fixed := by
  unfold isConstant constant?
  cases p.states.at? i with
  | none => simp
  | some state => cases state <;> simp [ValueState.isConstant, ValueState.constant?]

namespace Func

variable {f : Func} {ctx : Context} {lookahead position : Nat} {s : Statement}

private theorem isSome_at?_valueStates (f : Func) (ctx : Context) (position : Nat) :
    ((f.valueStates ctx).at? position).isSome = (f.statement? position).isSome := by
  unfold ValueStates.at? statement?
  split
  · rfl
  · rw [Bool.eq_iff_iff, Option.isSome_iff_ne_none, Option.isSome_iff_ne_none, ne_eq, ne_eq,
      Array.getElem?_eq_none_iff, Array.getElem?_eq_none_iff, valueStates_eq,
      ValueStates.size_ofStatements, Array.length_toList]

private theorem at?_valueStates_eq_some_iff {state : ValueState} :
    (f.valueStates ctx).at? position = some state ↔
      ∃ s, f.statement? position = some s ∧
        ((f.valueStates ctx).before position).transfer ctx s = state := by
  have hsome := f.isSome_at?_valueStates ctx position
  cases hs : f.statement? position with
  | none =>
    rw [hs, Option.isSome_none, Option.isSome_eq_false_iff, Option.isNone_iff_eq_none] at hsome
    simp [hsome]
  | some s => simp [at?_valueStates hs]

/-- A value means a constant if it is a literal of it, the supplied value of an immutable global, or
the result of an operator on what the operands of a call mean. -/
theorem meaning?_eq_some_iff {c : Constant} :
    f.meaning? ctx position = some c ↔
      (∃ ty, f.statement? position = some (.literal c ty)) ∨
        (∃ symbol ty, f.statement? position = some (.globalRead symbol ty true) ∧
          ctx.globalConstant? symbol = some c) ∨
        ∃ callee args ty, f.statement? position = some (.call callee args ty) ∧
          ∃ op cs, Operator.ofCallee? callee = some op ∧
            args.mapM (f.operandMeaning? ctx position) = some cs ∧ op.evaluate? cs = some c := by
  rw [meaning?]
  cases f.statement? position with
  | none => simp
  | some s =>
    cases s with
    | globalRead symbol ty isImmutable => cases isImmutable <;> simp
    | call callee args ty => simp [Option.bind_eq_some_iff]
    | _ => simp

private theorem resolve?_before_eq
    (h : ∀ i < position, (f.propagate ctx lookahead).constant? i = f.meaning? ctx i) :
    ((f.valueStates ctx).before position).resolve? = f.operandMeaning? ctx position := by
  funext operand
  cases operand with
  | const c => rw [operandMeaning?]; rfl
  | argument i => rw [operandMeaning?]; rfl
  | value i =>
    rw [operandMeaning?, ValueStates.resolve?, ValueStates.at?_before]
    split
    · next hi => exact h i hi
    · rfl

/-- A value is found to be known if the transfer of its statement finds a constant. -/
theorem constant?_propagate_eq_some_iff {c : Constant} :
    (f.propagate ctx lookahead).constant? position = some c ↔
      ∃ s, f.statement? position = some s ∧
        (((f.valueStates ctx).before position).transfer ctx s).constant? = some c := by
  show ((f.valueStates ctx).at? position).bind ValueState.constant? = some c ↔ _
  rw [Option.bind_eq_some_iff]
  constructor
  · rintro ⟨state, hat, hc⟩
    obtain ⟨s, hs, rfl⟩ := at?_valueStates_eq_some_iff.mp hat
    exact ⟨s, hs, hc⟩
  · rintro ⟨s, hs, hc⟩
    exact ⟨_, at?_valueStates hs, hc⟩

/-- The sweep finds the meaning of every value. -/
theorem constant?_propagate (f : Func) (ctx : Context) (lookahead position : Nat) :
    (f.propagate ctx lookahead).constant? position = f.meaning? ctx position := by
  -- what the sweep finds at a statement depends on the values before it, which have their meaning
  induction position using Nat.strong_induction_on with
  | _ position ih =>
    ext c
    rw [constant?_propagate_eq_some_iff, meaning?_eq_some_iff, ← resolve?_before_eq ih]
    simp only [ValueStates.constant?_transfer_eq_some, ValueStates.fold?_eq_some]
    cases f.statement? position <;> simp

/-- At a statement the sweep resolves operands to what they mean. -/
theorem resolve?_before (f : Func) (ctx : Context) (position : Nat) :
    ((f.valueStates ctx).before position).resolve? = f.operandMeaning? ctx position :=
  resolve?_before_eq fun i _ ↦ f.constant?_propagate ctx 0 i

private theorem at?_eq_fixed_iff :
    (f.valueStates ctx).at? position = some .fixed ↔ f.ReadsUnsupplied ctx position := by
  rw [at?_valueStates_eq_some_iff]
  simp only [ValueStates.transfer_eq_fixed_iff]
  constructor
  · rintro ⟨_, hs, symbol, ty, rfl, hunsupplied⟩
    exact ⟨symbol, ty, hs, hunsupplied⟩
  · rintro ⟨symbol, ty, hs, hunsupplied⟩
    exact ⟨_, hs, symbol, ty, rfl, hunsupplied⟩

/-- A value is found to be constant if it means one or reads an unsupplied global. -/
theorem isConstant_propagate_iff (f : Func) (ctx : Context) (lookahead position : Nat) :
    (f.propagate ctx lookahead).isConstant position = true ↔
      (∃ c, f.meaning? ctx position = some c) ∨ f.ReadsUnsupplied ctx position := by
  rw [Propagation.isConstant_iff, constant?_propagate, ← at?_eq_fixed_iff]
  rfl

private theorem constantRecord?_eq_some_iff {states : ValueStates} {r : ConstantRecord} :
    constantRecord? states (s, position) = some r ↔
      (states.at? position).any ValueState.isConstant = true ∧ r.index = position ∧
        r.value = (states.at? position).bind ValueState.constant? ∧
        r.isGlobalImmutable = (s matches .globalRead ..) ∧ r.folded = (s matches .call ..) := by
  unfold constantRecord?
  simp only [Option.map_eq_some_iff, Option.filter_eq_some_iff, Option.any_eq_true]
  constructor
  · rintro ⟨state, ⟨hat, hconstant⟩, rfl⟩
    exact ⟨⟨state, hat, hconstant⟩, rfl, by rw [hat, Option.bind_some], rfl, rfl⟩
  · rintro ⟨⟨state, hat, hconstant⟩, hindex, hvalue, himmutable, hfolded⟩
    rw [hat, Option.bind_some] at hvalue
    refine ⟨state, ⟨hat, hconstant⟩, ?_⟩
    cases r
    exact (ConstantRecord.mk.injEq ..).mpr ⟨hindex.symm, hvalue.symm, himmutable.symm, hfolded.symm⟩

/-- There is a record for each constant value, with its meaning and the kind of its statement. -/
theorem mem_records {r : ConstantRecord} :
    r ∈ (f.propagate ctx lookahead).records ↔
      ((∃ c, f.meaning? ctx r.index = some c) ∨ f.ReadsUnsupplied ctx r.index) ∧
        r.value = f.meaning? ctx r.index ∧ ∃ s, f.statement? r.index = some s ∧
          r.isGlobalImmutable = (s matches .globalRead ..) ∧ r.folded = (s matches .call ..) := by
  rw [← f.isConstant_propagate_iff ctx lookahead, ← f.constant?_propagate ctx lookahead]
  simp only [propagate, List.mem_filterMap, Prod.exists, mem_numbered, constantRecord?_eq_some_iff]
  constructor
  · rintro ⟨s, _, hs, hconstant, rfl, hvalue, hflags⟩
    exact ⟨hconstant, hvalue, s, hs, hflags⟩
  · rintro ⟨hconstant, hvalue, s, hs, hflags⟩
    exact ⟨s, _, hs, hconstant, rfl, hvalue, hflags⟩

private theorem pairwise_records (f : Func) (ctx : Context) (lookahead : Nat) :
    (f.propagate ctx lookahead).records.Pairwise (·.index < ·.index) :=
  f.pairwise_filterMap_numbered fun _ _ _ h ↦ (constantRecord?_eq_some_iff.mp h).2.1

/-- The decided branches are in ascending order of their statements. -/
theorem pairwise_decidedBranches (f : Func) (ctx : Context) (lookahead : Nat) :
    (f.propagate ctx lookahead).decidedBranches.Pairwise (·.index < ·.index) :=
  f.pairwise_filterMap_numbered fun _ _ _ h ↦ (decidedBranch?_eq_some_iff.mp h).1

/-- The calls that are counted as folded are those with a meaning. -/
theorem foldedCalls_eq (f : Func) (ctx : Context) (lookahead : Nat) :
    (f.propagate ctx lookahead).foldedCalls =
      {i | ∃ callee args resultType c, f.statement? i = some (.call callee args resultType) ∧
        f.meaning? ctx i = some c}.ncard := by
  have hnodup := ((f.pairwise_records ctx lookahead).filter (·.folded)).imp
    fun h ↦ Nat.ne_of_lt h
  have hset : {i | ∃ callee args resultType c,
      f.statement? i = some (.call callee args resultType) ∧ f.meaning? ctx i = some c} =
        ((((f.propagate ctx lookahead).records.filter (·.folded)).map (·.index)).toFinset :
          Set Nat) := by
    ext i
    simp only [Set.mem_ofPred_eq, List.coe_toFinset, List.mem_map, List.mem_filter, mem_records]
    constructor
    · rintro ⟨callee, args, resultType, c, hs, hc⟩
      exact ⟨⟨i, some c, false, true⟩, ⟨⟨.inl ⟨c, hc⟩, hc.symm, _, hs, rfl, rfl⟩, rfl⟩, rfl⟩
    · rintro ⟨r, ⟨⟨hconstant, -, s, hs, -, hfolded⟩, hr⟩, rfl⟩
      rw [hr] at hfolded
      cases s with
      | call callee args resultType =>
        rcases hconstant with ⟨c, hc⟩ | ⟨symbol, ty, hread, -⟩
        · exact ⟨callee, args, resultType, c, hs, hc⟩
        · cases hs.symm.trans hread
      | _ => cases hfolded
  rw [hset, Set.ncard_coe_finset,
    List.toFinset_card_of_nodup (List.pairwise_map.mpr hnodup), List.length_map,
    ← List.countP_eq_length_filter]
  rfl

/-- The decided branches are the branches whose condition means a truth value. -/
theorem mem_decidedBranches_iff {d : DecidedBranch} :
    d ∈ (f.propagate ctx lookahead).decidedBranches ↔
      ∃ condition fallthroughIsTrue truth,
        f.statement? d.index = some (.branch condition fallthroughIsTrue d.target) ∧
        f.operandMeaning? ctx d.index condition = some (.bool truth) ∧
        d.eliminatedArm = !truth ∧ d.jumpIsDead = (truth == fallthroughIsTrue) ∧
        d.statementsEliminated = f.countDead lookahead d.index := by
  rw [mem_decidedBranches, resolve?_before]
  constructor
  · rintro ⟨condition, fallthroughIsTrue, hs, hmeaning, hrecord⟩
    exact ⟨condition, fallthroughIsTrue, _, hs, hmeaning, (Bool.not_not _).symm, hrecord⟩
  · rintro ⟨condition, fallthroughIsTrue, truth, hs, hmeaning, harm, hrecord⟩
    obtain rfl : truth = !d.eliminatedArm := by rw [harm, Bool.not_not]
    exact ⟨condition, fallthroughIsTrue, hs, hmeaning, hrecord⟩

/-- Propagation tells the meaning of every value. -/
theorem propagate_tells_meaning (f : Func) (ctx : Context) (lookahead : Nat) :
    (f.propagate ctx lookahead).Tells f ctx lookahead where
  constant? := f.constant?_propagate ctx lookahead
  fixed _ := at?_eq_fixed_iff
  isSome_at? := f.isSome_at?_valueStates ctx
  records_ascending := f.pairwise_records ctx lookahead
  mem_records _ := mem_records
  foldedCalls := f.foldedCalls_eq ctx lookahead
  decidedBranches_ascending := f.pairwise_decidedBranches ctx lookahead
  mem_decidedBranches _ := mem_decidedBranches_iff

end Func
end SsaAdvisor
