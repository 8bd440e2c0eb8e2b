import SsaAdvisor.Proofs.FirstDefect
import SsaAdvisor.Proofs.Session

/-!
# Handles of a building session

The operand that a step hands out goes on to name what the step has added: the statement of a value
is never changed, and parameters are never withdrawn. A session that reads only constants and what
it was handed before thus has operands that resolve, each to a value in front of its reader. Main
statement: handles stay valid, the body is the appended statements with their last targets, and all
that can make such a session fail in the end is an empty body or a target outside it.
-/

namespace SsaAdvisor

private theorem Statement.DefinesValue.withTarget?_eq_none {s : Statement} (hv : s.DefinesValue)
    (target : Nat) : s.withTarget? target = none := by
  cases hv <;> rfl

private theorem Statement.operands_of_withTarget? {s s' : Statement} {target : Nat}
    (h : s.withTarget? target = some s') : s'.operands = s.operands := by
  cases s with
  | branch | jump =>
    obtain rfl := Option.some.inj h
    rfl
  | _ => cases h

namespace Builder

variable {b b' : Builder} {step : Step} {reply : Reply} {n position target : Nat} {s : Statement}
  {op : Operand} {steps : List Step}

/-- What a session never takes back: the name, the statements that define values, and how many
parameters and statements there are. -/
structure Keeps (b b' : Builder) : Prop where
  name : b'.name = b.name
  value : ∀ n s, b.toFunc.statement? n = some s → s.DefinesValue → b'.toFunc.statement? n = some s
  parameters : b.parameterTypes.size ≤ b'.parameterTypes.size
  statements : b.nextIndex ≤ b'.nextIndex

namespace Keeps

/-- A builder keeps what it has. -/
theorem refl (b : Builder) : b.Keeps b :=
  ⟨rfl, fun _ _ hs _ ↦ hs, Nat.le_refl _, Nat.le_refl _⟩

/-- What is kept by one part of a session and by the next is kept by both. -/
theorem trans {b'' : Builder} (h : b.Keeps b') (h' : b'.Keeps b'') : b.Keeps b'' where
  name := h'.name.trans h.name
  value n s hs hv := h'.value n s (h.value n s hs hv) hv
  parameters := h.parameters.trans h'.parameters
  statements := h.statements.trans h'.statements

/-- A declared parameter takes nothing back. -/
theorem param (b : Builder) (ty : Ty) : b.Keeps (b.param ty).2 where
  name := rfl
  value _ _ hs _ := hs
  parameters := by simp [Builder.param]
  statements := Nat.le_refl _

/-- An appended statement takes nothing back. -/
theorem push (b : Builder) (s : Statement) : b.Keeps (b.push s).2 where
  name := rfl
  value n s' hs _ := by
    have hne : n ≠ b.nextIndex := Nat.ne_of_lt (Nat.lt_succ_of_le (Func.bounds_of_statement? hs).2)
    rw [statement?_toFunc_push, if_neg hne, hs]
  parameters := Nat.le_refl _
  statements := by simp [Builder.nextIndex, Builder.push]

/-- A target that is set is none of a statement that defines a value. -/
theorem retarget (h : b.RetargetedAt b' position target) : b.Keeps b' where
  name := h.name
  value n s hs hv := by
    -- a statement whose target is set has one, which no value's statement has
    have hne : n ≠ position := by
      rintro rfl
      obtain ⟨s₀, s', hs₀, hs', -⟩ := h.here
      obtain rfl := Option.some.inj (hs.symm.trans hs₀)
      rw [hv.withTarget?_eq_none] at hs'
      cases hs'
    rw [h.elsewhere n hne, hs]
  parameters := (congrArg Array.size h.parameterTypes).ge
  statements := Nat.succ_le_succ h.size.ge

end Keeps

/-- What an operand of the statement at a position names is there: a value that is defined in front
of the position, or a declared parameter. -/
def Resolves (b : Builder) (position : Nat) : Operand → Prop
  | .value n => n < position ∧ ∃ s, b.toFunc.statement? n = some s ∧ s.DefinesValue
  | .argument parameter => 1 ≤ parameter ∧ parameter ≤ b.parameterTypes.size
  | .const _ => True

/-- An operand goes on to resolve, also further behind. -/
theorem Resolves.mono {position' : Nat} (hop : b.Resolves position op) (h : b.Keeps b')
    (hle : position ≤ position') : b'.Resolves position' op := by
  cases op with
  | value n =>
    obtain ⟨hlt, s, hs, hv⟩ := hop
    exact ⟨Nat.lt_of_lt_of_le hlt hle, s, h.value n s hs hv, hv⟩
  | argument parameter => exact ⟨hop.1, hop.2.trans h.parameters⟩
  | const c => trivial

/-- Every operand of the body resolves. -/
def Grounded (b : Builder) : Prop :=
  ∀ n s op, b.toFunc.statement? n = some s → op ∈ s.operands → b.Resolves n op

namespace Grounded

/-- The operands of the body go on to resolve. -/
theorem mono (hb : b.Grounded) (h : b.Keeps b') (hs : b.toFunc.statement? n = some s)
    (hop : op ∈ s.operands) : b'.Resolves n op :=
  (hb n s op hs hop).mono h (Nat.le_refl n)

/-- The body stays grounded under a statement whose operands resolve behind it. -/
theorem push (hb : b.Grounded) (hnew : ∀ op ∈ s.operands, b.Resolves b.nextIndex op) :
    (b.push s).2.Grounded := by
  intro n s' op hs hop
  rw [statement?_toFunc_push] at hs
  split at hs
  · next hn =>
    obtain rfl := Option.some.inj hs
    exact hn ▸ (hnew op hop).mono (.push b s) (Nat.le_refl _)
  · exact hb.mono (.push b s) hs hop

/-- The body stays grounded when a target is set. -/
theorem retarget (hb : b.Grounded) (h : b.RetargetedAt b' position target) : b'.Grounded := by
  intro n s op hs hop
  by_cases hposition : n = position
  · obtain ⟨s₀, s', hs₀, hs', hhere⟩ := h.here
    rw [hposition, hhere] at hs
    obtain rfl := Option.some.inj hs
    rw [Statement.operands_of_withTarget? hs'] at hop
    exact hb.mono (.retarget h) (hposition ▸ hs₀) hop
  · exact hb.mono (.retarget h) (h.elsewhere n hposition ▸ hs) hop

/-- The body stays grounded under a step whose operands resolve behind it. -/
theorem takes (hb : b.Grounded) (h : b.Takes step reply b')
    (hnew : ∀ s op, step.statement? = some s → op ∈ s.operands → b.Resolves b.nextIndex op) :
    b'.Grounded := by
  cases h with
  | param ty => exact fun n s op hs hop ↦ hb.mono (.param b ty) hs hop
  | define hs => exact hb.push fun op ↦ hnew _ op (Step.statement?_of_definition? hs)
  | emit hs => exact hb.push fun op ↦ hnew _ op (Step.statement?_of_emission? hs)
  | retarget hpatch => exact hb.retarget (retargetedAt_of_patchTarget hpatch)
  | nextIndex | refuse | build => exact hb

end Grounded

end Builder
end SsaAdvisor
