import Mathlib.Data.List.Induction
import SsaAdvisor.Func.Builder

/-!
# Building sessions

What one step of a building session may do, as rules, and what a whole session has done. Statements
are only ever appended, and an appended one changes in nothing but its target, so the body is the
appended statements in order, each with the target that was last set for it. In particular a
statement that defines a value stays what it was when it was appended.
-/

namespace SsaAdvisor

/-- The statement with the target that is set for it, if one is. -/
def Statement.retarget (s : Statement) (target? : Option Nat) : Statement :=
  (target?.bind fun target ↦ s.withTarget? target).getD s

private theorem Statement.retarget_of_withTarget? {s s' : Statement} {target? : Option Nat}
    {target : Nat}
    (h : (s.retarget target?).withTarget? target = some s') : s.retarget (some target) = s' := by
  cases s <;> cases target? <;> simp_all [retarget, withTarget?]

namespace Builder

variable {b b' : Builder} {step : Step} {reply : Reply} {position target : Nat} {s : Statement}

/-- The statement of a step that names the value it defines. -/
def Step.definition? : Step → Option Statement
  | .literal value ty => some (.literal value ty)
  | .constant value => some (.literal value value.runtimeType)
  | .global symbol ty isImmutable => some (.globalRead symbol ty isImmutable)
  | .call callee args resultType => some (.call callee args resultType)
  | _ => none

/-- The statement of a step that only tells its position. -/
def Step.emission? : Step → Option Statement
  | .push s => some s
  | .branch condition fallthroughIsTrue target =>
    some (.branch condition fallthroughIsTrue target)
  | .jump target => some (.jump target)
  | .ret value => some (.ret value)
  | _ => none

/-- The statement that a step appends. -/
def Step.statement? (step : Step) : Option Statement := step.definition?.or step.emission?

/-- A step appends the statement of the value it defines. -/
theorem Step.statement?_of_definition? (h : step.definition? = some s) :
    step.statement? = some s := by
  rw [statement?, h, Option.some_or]

/-- A step appends the statement whose position is all that it tells. -/
theorem Step.statement?_of_emission? (h : step.emission? = some s) : step.statement? = some s := by
  cases step <;> first | exact h | cases h

/-- What a session makes of a builder. -/
def after (b : Builder) (steps : List Step) : Builder := (b.run steps).2

/-- What a step may answer and make of a builder. -/
inductive Takes (b : Builder) : Step → Reply → Builder → Prop
  | param (ty : Ty) :
    b.Takes (.param ty) (.operand (.argument (b.parameterTypes.size + 1))) (b.param ty).2
  | define {step : Step} {s : Statement} : step.definition? = some s →
    b.Takes step (.operand (.value b.nextIndex)) (b.push s).2
  | emit {step : Step} {s : Statement} : step.emission? = some s →
    b.Takes step (.index b.nextIndex) (b.push s).2
  | nextIndex : b.Takes .nextIndex (.index b.nextIndex) b
  | retarget {position target : Nat} {b' : Builder} : b.patchTarget position target = .ok b' →
    b.Takes (.patchTarget position target) (.patched (.ok ())) b'
  | refuse {position target : Nat} {defect : Defect} :
    b.patchTarget position target = .error defect →
      b.Takes (.patchTarget position target) (.patched (.error defect)) b
  | build : b.Takes .build (.built b.build) b

/-- The second builder is the first one but for the target of the branch or jump at a position. -/
structure RetargetedAt (b b' : Builder) (position target : Nat) : Prop where
  name : b'.name = b.name
  parameterTypes : b'.parameterTypes = b.parameterTypes
  size : b'.body.size = b.body.size
  here : ∃ s s', b.toFunc.statement? position = some s ∧ s.withTarget? target = some s' ∧
    b'.toFunc.statement? position = some s'
  elsewhere : ∀ n, n ≠ position → b'.toFunc.statement? n = b.toFunc.statement? n

/-- To set a target is to replace the statement at the position by one with that target. -/
theorem patchTarget_eq (b : Builder) (position target : Nat) :
    b.patchTarget position target =
      match (b.toFunc.statement? position).bind (·.withTarget? target) with
      | some s => .ok ⟨b.name, b.parameterTypes, b.body.setIfInBounds (position - 1) s⟩
      | none => .error (.notAJump position) := by
  unfold patchTarget toFunc Func.statement?
  by_cases hzero : position = 0
  · simp [hzero]
  · simp only [hzero, if_false]
    rfl

/-- To set a target succeeds at a branch or jump, and changes nothing else. -/
theorem retargetedAt_of_patchTarget (h : b.patchTarget position target = .ok b') :
    b.RetargetedAt b' position target := by
  rw [patchTarget_eq] at h
  split at h
  · next s' hs' =>
    obtain ⟨s, hs, htarget⟩ := Option.bind_eq_some_iff.mp hs'
    obtain ⟨hpos, hsize⟩ := Func.bounds_of_statement? hs
    have hlt : position - 1 < b.body.size := Nat.sub_one_lt_of_le hpos hsize
    obtain rfl := Except.ok.inj h
    refine ⟨rfl, rfl, Array.size_setIfInBounds, ⟨s, s', hs, htarget, ?_⟩, fun n hne ↦ ?_⟩
    · simp [toFunc, Func.statement?, Nat.ne_of_gt hpos, hlt]
    · unfold toFunc Func.statement?
      by_cases hzero : n = 0
      · simp [hzero]
      · have hother : position - 1 ≠ n - 1 := by omega
        simp [hzero, hother]
  · cases h

/-- After an appended statement the body has it in addition. -/
theorem statement?_toFunc_push (b : Builder) (s : Statement) (n : Nat) :
    (b.push s).2.toFunc.statement? n =
      if n = b.nextIndex then some s else b.toFunc.statement? n := by
  unfold push toFunc Func.statement? nextIndex
  by_cases hzero : n = 0
  · simp [hzero]
  · obtain ⟨i, rfl⟩ := Nat.exists_eq_succ_of_ne_zero hzero
    simp [Array.getElem?_push]

section Run

end Run

/-- The body holds the statements in order, each with the target that is given for its position, and
no target is given for a position behind the body. -/
structure Tracks (b : Builder) (statements : List Statement) (targets : Nat → Option Nat) :
    Prop where
  size : b.body.size = statements.length
  bound : ∀ n target, targets n = some target → n ≤ b.body.size
  body : ∀ i, b.toFunc.statement? (i + 1) = statements[i]?.map (·.retarget (targets (i + 1)))

namespace Tracks

variable {statements : List Statement} {targets : Nat → Option Nat}

/-- The body stays when a parameter is declared. -/
theorem param (h : b.Tracks statements targets) (ty : Ty) :
    (b.param ty).2.Tracks statements targets :=
  ⟨h.size, h.bound, h.body⟩

/-- The body goes on to hold the statements when one is appended. -/
theorem push (h : b.Tracks statements targets) (s : Statement) :
    (b.push s).2.Tracks (statements ++ [s]) targets := by
  have hsize : (b.push s).2.body.size = b.body.size + 1 := Array.size_push s
  refine ⟨?_, fun n target hn ↦ ?_, fun i ↦ ?_⟩
  · rw [hsize, h.size, List.length_append, List.length_singleton]
  · have hle := h.bound n target hn
    omega
  · rw [statement?_toFunc_push, nextIndex, h.size]
    by_cases hi : i = statements.length
    -- no target can have been set ahead of the statement, so it stands as it was appended
    · have hnone : targets (i + 1) = none := by
        rw [Option.eq_none_iff_forall_ne_some]
        intro target hn
        have hle := h.bound _ _ hn
        rw [h.size] at hle
        omega
      rw [if_pos (congrArg (· + 1) hi), hnone, hi, List.getElem?_concat_length]
      rfl
    · have hother : ¬ i + 1 = statements.length + 1 := mt Nat.succ.inj hi
      have hsame : (statements ++ [s])[i]? = statements[i]? := by
        rcases Nat.lt_or_gt_of_ne hi with hlt | hgt
        · exact List.getElem?_append_left hlt
        · rw [List.getElem?_eq_none (Nat.le_of_lt hgt), List.getElem?_eq_none]
          rw [List.length_append, List.length_singleton]
          omega
      rw [if_neg hother, h.body, hsame]

/-- The body goes on to hold the statements when a target is set, then with that target. -/
theorem retarget (h : b.Tracks statements targets) (hb : b.RetargetedAt b' position target) :
    b'.Tracks statements fun n ↦ ([(position, target)].lookup n).or (targets n) := by
  obtain ⟨s, s', hs, hs', hhere⟩ := hb.here
  refine ⟨hb.size.trans h.size, fun n target' hn ↦ ?_, fun i ↦ ?_⟩
  · rw [hb.size]
    by_cases hposition : n = position
    · exact hposition ▸ (Func.bounds_of_statement? hs).2
    · rw [List.lookup_cons, beq_eq_false_iff_ne.mpr hposition] at hn
      exact h.bound n target' hn
  · by_cases hposition : i + 1 = position
    -- the statement may carry an older target, which the new one replaces
    · have hbody := h.body i
      rw [hposition, hs] at hbody
      obtain ⟨original, horiginal, heq⟩ := Option.map_eq_some_iff.mp hbody.symm
      rw [← heq] at hs'
      simp only [hposition, hhere, horiginal, List.lookup_cons, beq_self_eq_true, Option.some_or,
        Option.map_some, Statement.retarget_of_withTarget? hs']
    · rw [List.lookup_cons, beq_eq_false_iff_ne.mpr hposition, hb.elsewhere _ hposition, h.body]
      rfl

end Tracks

end Builder
end SsaAdvisor
