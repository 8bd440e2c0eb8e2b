import Mathlib.Data.List.Induction
import SsaAdvisor.Propagation
import SsaAdvisor.Proofs.Traversal

/-!
# The sweep over a body

The sweep extends the states of the values before a statement by what the statement's transfer finds
in them, and never changes a state again. So the final states tell of every value what was known
when the sweep met it, and a decided branch is one whose condition they resolve from the values
before it.
-/

namespace SsaAdvisor

private theorem Constant.asBool?_eq_some {c : Constant} {truth : Bool} :
    c.asBool? = some truth ↔ c = .bool truth := by
  cases c <;> simp [asBool?]

namespace ValueStates

variable {ctx : Context} {states : ValueStates} {c : Constant}

/-- The states that a sweep over statements finds. -/
def ofStatements (ctx : Context) (statements : List Statement) : ValueStates :=
  statements.foldl (fun states s ↦ states.push (states.transfer ctx s)) #[]

/-- The sweep meets the last statement with the states of all others. -/
theorem ofStatements_append_singleton (front : List Statement) (s : Statement) :
    ofStatements ctx (front ++ [s]) =
      (ofStatements ctx front).push ((ofStatements ctx front).transfer ctx s) := by
  rw [ofStatements, List.foldl_append, List.foldl_cons, List.foldl_nil, ofStatements]

/-- The sweep finds one state for each statement. -/
theorem size_ofStatements (ctx : Context) (statements : List Statement) :
    (ofStatements ctx statements).size = statements.length := by
  induction statements using List.reverseRecOn with
  | nil => rfl
  | append_singleton front s ih =>
    rw [ofStatements_append_singleton, Array.size_push, ih, List.length_append,
      List.length_singleton]

private theorem getElem?_ofStatements_append (ctx : Context) {front : List Statement}
    (back : List Statement) {i : Nat} (hi : i < front.length) :
    (ofStatements ctx (front ++ back))[i]? = (ofStatements ctx front)[i]? := by
  induction back using List.reverseRecOn with
  | nil => rw [List.append_nil]
  | append_singleton back s ih =>
    have hne : i ≠ (ofStatements ctx (front ++ back)).size := by
      rw [size_ofStatements, List.length_append]
      omega
    rw [← List.append_assoc, ofStatements_append_singleton, Array.getElem?_push, if_neg hne, ih]

private theorem take_ofStatements (ctx : Context) (front back : List Statement) :
    (ofStatements ctx (front ++ back)).take front.length = ofStatements ctx front := by
  apply Array.ext_getElem?
  intro i
  rw [Array.take_eq_extract, Array.getElem?_extract, Nat.zero_add, size_ofStatements,
    List.length_append, Nat.sub_zero, Nat.min_eq_left (Nat.le_add_right _ _)]
  split
  · next hi => exact getElem?_ofStatements_append ctx back hi
  · next hi => rw [Array.getElem?_eq_none (by rw [size_ofStatements]; omega)]

/-- The state found at a statement is what its transfer finds in the states before it. -/
theorem getElem?_ofStatements (ctx : Context) (front back : List Statement) (s : Statement) :
    (ofStatements ctx (front ++ s :: back))[front.length]? =
      some ((ofStatements ctx front).transfer ctx s) := by
  have hlt : front.length < (front ++ [s]).length := by simp
  rw [List.append_cons, getElem?_ofStatements_append ctx back hlt, ofStatements_append_singleton,
    Array.getElem?_push, size_ofStatements, if_pos rfl]

/-- The states before a position are those at smaller positions. -/
theorem at?_before (states : ValueStates) (position i : Nat) :
    (states.before position).at? i = if i < position then states.at? i else none := by
  simp only [at?, before, Array.take_eq_extract, Array.getElem?_extract, Nat.zero_add,
    Nat.sub_zero]
  by_cases hi : i = 0
  · simp [hi]
  · rw [if_neg hi, if_neg hi]
    by_cases hlt : i < position
    · rw [if_pos hlt]
      split
      · rfl
      · rw [Array.getElem?_eq_none (by omega)]
    · rw [if_neg hlt, if_neg (by omega)]

/-- A further state stands at the next position. -/
theorem at?_push (states : ValueStates) (state : ValueState) (i : Nat) :
    ValueStates.at? (states.push state) i =
      if i = states.size + 1 then some state else states.at? i := by
  unfold at?
  rw [Array.getElem?_push]
  split
  · next h => simp [h]
  · next h =>
    have he : i - 1 = states.size ↔ i = states.size + 1 := by omega
    simp only [he]

/-- A call folds to a constant if its callee names an operator that has this result on the constants
that the operands resolve to. -/
theorem fold?_eq_some {callee : String} {args : List Operand} :
    states.fold? callee args = some c ↔
      ∃ op cs, Operator.ofCallee? callee = some op ∧ args.mapM states.resolve? = some cs ∧
        op.evaluate? cs = some c := by
  simp [fold?, Option.bind_eq_some_iff]

/-- A transfer finds a constant for its literals, for immutable globals that the context supplies
and for calls that fold. -/
theorem constant?_transfer_eq_some {s : Statement} :
    (states.transfer ctx s).constant? = some c ↔
      (∃ ty, s = .literal c ty) ∨
        (∃ symbol ty, s = .globalRead symbol ty true ∧ ctx.globalConstant? symbol = some c) ∨
        ∃ callee args ty, s = .call callee args ty ∧ states.fold? callee args = some c := by
  cases s with
  | literal value ty => simp [transfer, ValueState.constant?, eq_comm]
  | globalRead symbol ty isImmutable =>
    cases isImmutable with
    | false => simp [transfer, ValueState.constant?]
    | true => cases hg : ctx.globalConstant? symbol <;> simp [transfer, ValueState.constant?, hg]
  | call callee args ty =>
    cases hf : states.fold? callee args <;> simp [transfer, ValueState.constant?, hf]
  | branch condition fallthroughIsTrue target => simp [transfer, ValueState.constant?]
  | jump target => simp [transfer, ValueState.constant?]
  | ret value => simp [transfer, ValueState.constant?]

end ValueStates

namespace Func

variable {f : Func} {ctx : Context} {lookahead position : Nat} {s : Statement}

/-- The sweep finds the states of a body's statements. -/
theorem valueStates_eq (f : Func) (ctx : Context) :
    f.valueStates ctx = .ofStatements ctx f.body.toList := by
  rw [valueStates, ValueStates.ofStatements, Array.foldl_toList]

/-- The state of a value is what the transfer of its statement finds in the states before it. -/
theorem at?_valueStates (hs : f.statement? position = some s) :
    (f.valueStates ctx).at? position =
      some (((f.valueStates ctx).before position).transfer ctx s) := by
  have hpos := (bounds_of_statement? hs).1
  rw [statement?, if_neg (by omega), ← Array.getElem?_toList] at hs
  obtain ⟨hlt, hget⟩ := List.getElem?_eq_some_iff.mp hs
  have hlen : (f.body.toList.take (position - 1)).length = position - 1 := by
    rw [List.length_take]
    omega
  have hbody : f.body.toList =
      f.body.toList.take (position - 1) ++ (s :: f.body.toList.drop position) := by
    have hsucc : position = position - 1 + 1 := by omega
    rw [hsucc, Nat.add_sub_cancel, ← hget, List.getElem_cons_drop, List.take_append_drop]
  generalize f.body.toList.take (position - 1) = front at hbody hlen
  generalize f.body.toList.drop position = back at hbody
  have hbefore : (f.valueStates ctx).before position = .ofStatements ctx front := by
    rw [valueStates_eq, hbody, ValueStates.before, ← hlen, ValueStates.take_ofStatements]
  rw [hbefore, ValueStates.at?, if_neg (by omega), valueStates_eq, hbody, ← hlen,
    ValueStates.getElem?_ofStatements]

/-- A statement is a decided branch if its condition resolves to a truth value before it. -/
theorem decidedBranch?_eq_some_iff {states : ValueStates} {d : DecidedBranch} :
    f.decidedBranch? lookahead states (s, position) = some d ↔
      d.index = position ∧ ∃ condition fallthroughIsTrue,
        s = .branch condition fallthroughIsTrue d.target ∧
        (states.before position).resolve? condition = some (.bool !d.eliminatedArm) ∧
        d.jumpIsDead = ((!d.eliminatedArm) == fallthroughIsTrue) ∧
        d.statementsEliminated = f.countDead lookahead position := by
  constructor
  · intro hd
    unfold decidedBranch? at hd
    split at hd
    · next condition fallthroughIsTrue target _ hpair =>
      obtain ⟨rfl, rfl⟩ := Prod.mk.inj hpair
      obtain ⟨truth, hc, rfl⟩ := Option.map_eq_some_iff.mp hd
      obtain ⟨c, hc, ht⟩ := Option.bind_eq_some_iff.mp hc
      rw [Constant.asBool?_eq_some.mp ht] at hc
      exact ⟨rfl, condition, fallthroughIsTrue, rfl, by simpa using hc, by simp, rfl⟩
    · simp at hd
  · rintro ⟨rfl, condition, fallthroughIsTrue, rfl, hc, hj, he⟩
    simp only [decidedBranch?, hc, Option.bind_some, Constant.asBool?, Option.map_some,
      Bool.not_not, ← hj, ← he]

/-- The decided branches are the branches whose condition resolves to a truth value before them. -/
theorem mem_decidedBranches {d : DecidedBranch} :
    d ∈ (f.propagate ctx lookahead).decidedBranches ↔
      ∃ condition fallthroughIsTrue,
        f.statement? d.index = some (.branch condition fallthroughIsTrue d.target) ∧
        ((f.valueStates ctx).before d.index).resolve? condition = some (.bool !d.eliminatedArm) ∧
        d.jumpIsDead = ((!d.eliminatedArm) == fallthroughIsTrue) ∧
        d.statementsEliminated = f.countDead lookahead d.index := by
  simp only [propagate, List.mem_filterMap, Prod.exists, mem_numbered, decidedBranch?_eq_some_iff]
  constructor
  · rintro ⟨s, _, hs, rfl, condition, fallthroughIsTrue, rfl, hd⟩
    exact ⟨condition, fallthroughIsTrue, hs, hd⟩
  · rintro ⟨condition, fallthroughIsTrue, hs, hd⟩
    exact ⟨_, _, hs, rfl, condition, fallthroughIsTrue, rfl, hd⟩

/-- There is one decided branch at a position. -/
theorem eq_of_mem_decidedBranches {d d' : DecidedBranch}
    (hd : d ∈ (f.propagate ctx lookahead).decidedBranches)
    (hd' : d' ∈ (f.propagate ctx lookahead).decidedBranches) (hi : d.index = d'.index) :
    d = d' := by
  obtain ⟨condition, fallthroughIsTrue, hs, hk, hj, hcount⟩ := mem_decidedBranches.mp hd
  obtain ⟨condition', fallthroughIsTrue', hs', hk', hj', hcount'⟩ := mem_decidedBranches.mp hd'
  rw [hi] at hs hk hcount
  obtain ⟨rfl, rfl, htarget⟩ := Statement.branch.inj (Option.some.inj (hs.symm.trans hs'))
  have harm : d.eliminatedArm = d'.eliminatedArm := by simpa using hk.symm.trans hk'
  cases d
  cases d'
  simp_all

/-- A branch is decided against its jump by one of the decided branches. -/
theorem exists_of_jumpIsDead (h : (f.propagate ctx lookahead).jumpIsDead position = true) :
    ∃ d ∈ (f.propagate ctx lookahead).decidedBranches, d.index = position ∧
      d.jumpIsDead = true := by
  obtain ⟨d, hd, hj⟩ := (Option.any_eq_true _ _).mp h
  refine ⟨d, List.mem_of_find?_eq_some hd, ?_, hj⟩
  simpa using List.find?_some hd

/-- One of the decided branches whose jump is dead decides the branch against its jump. -/
theorem jumpIsDead_of_mem {d : DecidedBranch}
    (hd : d ∈ (f.propagate ctx lookahead).decidedBranches) (hj : d.jumpIsDead = true) :
    (f.propagate ctx lookahead).jumpIsDead d.index = true := by
  unfold Propagation.jumpIsDead Propagation.decidedBranch?
  cases hfind : (f.propagate ctx lookahead).decidedBranches.find? (·.index == d.index) with
  | none => exact absurd (List.find?_eq_none.mp hfind d hd) (by simp)
  | some d' =>
    have hi : d'.index = d.index := by simpa using List.find?_some hfind
    rw [eq_of_mem_decidedBranches (List.mem_of_find?_eq_some hfind) hd hi]
    exact hj

end Func
end SsaAdvisor
