import SsaAdvisor.Proofs.ControlFlow
import SsaAdvisor.Proofs.Sweep

/-!
# Runs of a function

A run executes a body from the first statement on, with nothing bound at first and any arguments. A
value is a constant or an object that no constant stands for. What a statement defines is determined
for literals, for immutable globals that the context supplies and for calls of operators whose
operands are constants with a result; otherwise it may be anything. A run stops at a statement whose
operands are not all bound.

Main statements: whatever is bound agrees with what propagation knows, and control leaves a decided
branch by the arm that is not dead.
-/

namespace SsaAdvisor

variable {α : Type}

/-- What a value can be in a run. -/
inductive RunValue (α : Type) where
  /-- A constant. -/
  | const (value : Constant)
  /-- Something that is no constant. -/
  | object (value : α)

namespace RunValue

/-- The constant that the value is. -/
def constant? : RunValue α → Option Constant
  | .const value => some value
  | .object _ => none

/-- The truth value that the value is. -/
def truth? (v : RunValue α) : Option Bool := v.constant?.bind Constant.asBool?

end RunValue

/-- Where a run stands, and which values it has bound. -/
structure RunState (α : Type) where
  position : Nat
  bindings : Nat → Option (RunValue α)

namespace RunState

/-- Before the first statement nothing is bound. -/
def initial : RunState α := ⟨1, fun _ ↦ none⟩

/-- What an operand is, if it is bound. -/
def read? (σ : RunState α) (arguments : Nat → RunValue α) : Operand → Option (RunValue α)
  | .value position => σ.bindings position
  | .argument position => some (arguments position)
  | .const value => some (.const value)

/-- The constant that a statement is sure to define. -/
def determined? (σ : RunState α) (ctx : Context) (arguments : Nat → RunValue α) :
    Statement → Option Constant
  | .literal value _ => some value
  | .globalRead symbol _ true => ctx.globalConstant? symbol
  | .call callee args _ => do
    let op ← Operator.ofCallee? callee
    op.evaluate? (← args.mapM fun operand ↦ (σ.read? arguments operand).bind RunValue.constant?)
  | .globalRead _ _ false | .branch .. | .jump _ | .ret _ => none

/-- The state behind a statement that defines the given value. -/
def define (σ : RunState α) (value : RunValue α) : RunState α :=
  ⟨σ.position + 1, Function.update σ.bindings σ.position (some value)⟩

/-- The same bindings at another position. -/
def goto (σ : RunState α) (position : Nat) : RunState α := { σ with position }

/-- Whether every bound value that is known to be a constant is that constant. -/
def Agrees (σ : RunState α) (states : ValueStates) : Prop :=
  ∀ position c v, (states.at? position).bind ValueState.constant? = some c →
    σ.bindings position = some v → v = .const c

end RunState

namespace Func

/-- One step of a run, which leaves the statement by the given arm. A condition that is no truth
value may send control either way. -/
inductive Step (f : Func) (ctx : Context) (arguments : Nat → RunValue α) :
    RunState α → Arm → RunState α → Prop
  | define {σ : RunState α} {s : Statement} {value : RunValue α}
      (statement : f.statement? σ.position = some s) (produces : s.producesValue = true)
      (bound : ∀ operand ∈ s.operands, (σ.read? arguments operand).isSome = true)
      (determined : ∀ c, σ.determined? ctx arguments s = some c → value = .const c) :
      Step f ctx arguments σ .next (σ.define value)
  | fallThrough {σ : RunState α} {condition : Operand} {fallthroughIsTrue : Bool} {target : Nat}
      {value : RunValue α}
      (statement : f.statement? σ.position = some (.branch condition fallthroughIsTrue target))
      (bound : σ.read? arguments condition = some value)
      (truth : value.truth? ≠ some !fallthroughIsTrue) :
      Step f ctx arguments σ .next (σ.goto (σ.position + 1))
  | branch {σ : RunState α} {condition : Operand} {fallthroughIsTrue : Bool} {target : Nat}
      {value : RunValue α}
      (statement : f.statement? σ.position = some (.branch condition fallthroughIsTrue target))
      (bound : σ.read? arguments condition = some value)
      (truth : value.truth? ≠ some fallthroughIsTrue) :
      Step f ctx arguments σ .jump (σ.goto target)
  | jump {σ : RunState α} {target : Nat}
      (statement : f.statement? σ.position = some (.jump target)) :
      Step f ctx arguments σ .jump (σ.goto target)

/-- The states that runs on the arguments go through. -/
inductive Reachable (f : Func) (ctx : Context) (arguments : Nat → RunValue α) :
    RunState α → Prop
  | initial : Reachable f ctx arguments .initial
  | step {σ τ : RunState α} {arm : Arm} : Reachable f ctx arguments σ →
      f.Step ctx arguments σ arm τ → Reachable f ctx arguments τ

end Func

namespace RunState.Agrees

variable {σ τ : RunState α} {states : ValueStates} {ctx : Context} {arguments : Nat → RunValue α}
  {c : Constant} {v : RunValue α}

private theorem read?_eq (h : σ.Agrees states) {op : Operand} (hk : states.resolve? op = some c)
    (hr : σ.read? arguments op = some v) : v = .const c := by
  cases op with
  | value position => exact h position c v hk hr
  | argument position => simp [ValueStates.resolve?] at hk
  | const value =>
    simp only [ValueStates.resolve?, read?, Option.some.injEq] at hk hr
    rw [← hr, hk]

/-- Agreement with all states is agreement with those before a position. -/
theorem before (h : σ.Agrees states) (position : Nat) : σ.Agrees (states.before position) := by
  intro i c v hk hb
  rw [ValueStates.at?_before] at hk
  split at hk
  · exact h i c v hk hb
  · simp at hk

/-- A statement whose operands are bound is sure to define what its transfer finds. -/
theorem determined?_eq (h : σ.Agrees states) {s : Statement}
    (hb : ∀ operand ∈ s.operands, (σ.read? arguments operand).isSome = true)
    (hk : (states.transfer ctx s).constant? = some c) :
    σ.determined? ctx arguments s = some c := by
  rcases ValueStates.constant?_transfer_eq_some.mp hk with
    ⟨ty, rfl⟩ | ⟨symbol, ty, rfl, hg⟩ | ⟨callee, args, ty, rfl, hf⟩
  · rfl
  · exact hg
  · obtain ⟨op, cs, hop, hcs, hc⟩ := ValueStates.fold?_eq_some.mp hf
    have hread : args.mapM (fun operand ↦ (σ.read? arguments operand).bind RunValue.constant?) =
        some cs := by
      apply mapM_mono _ hcs
      intro operand ho b hr
      obtain ⟨v, hv⟩ := Option.isSome_iff_exists.mp (hb operand ho)
      rw [hv, h.read?_eq hr hv, Option.bind_some, RunValue.constant?]
    simp [determined?, hop, hread, hc]

end RunState.Agrees

namespace Func

variable {f : Func} {σ τ : RunState α} {ctx : Context} {arguments : Nat → RunValue α} {arm : Arm}
  {lookahead : Nat}

/-- A run stops only at a return, outside the body, or where an operand is not bound. -/
theorem exists_step {s : Statement} (hs : f.statement? σ.position = some s)
    (hb : ∀ operand ∈ s.operands, (σ.read? arguments operand).isSome = true)
    (hr : ∀ value, s ≠ .ret value) (ctx : Context) :
    ∃ arm τ, f.Step ctx arguments σ arm τ := by
  by_cases hp : s.producesValue = true
  · refine ⟨.next, σ.define (.const ((σ.determined? ctx arguments s).getD .nothing)),
      .define hs hp hb ?_⟩
    intro c hc
    rw [hc, Option.getD_some]
  · cases s with
    | branch condition fallthroughIsTrue target =>
      obtain ⟨v, hv⟩ := Option.isSome_iff_exists.mp (hb condition (by simp [Statement.operands]))
      by_cases ht : v.truth? = some !fallthroughIsTrue
      · exact ⟨.jump, _, .branch hs hv (by simp [ht])⟩
      · exact ⟨.next, _, .fallThrough hs hv ht⟩
    | jump target => exact ⟨.jump, _, .jump hs⟩
    | ret value => exact absurd rfl (hr value)
    | _ => exact absurd rfl hp

/-- A step keeps the agreement with what the sweep has found. -/
theorem Step.agrees (h : f.Step ctx arguments σ arm τ) (ha : σ.Agrees (f.valueStates ctx)) :
    τ.Agrees (f.valueStates ctx) := by
  cases h with
  | @define s value hs _ hb hd =>
    intro position c v hk hv
    simp only [RunState.define] at hv
    by_cases hp : position = σ.position
    · subst hp
      obtain rfl : value = v := by simpa using hv
      rw [at?_valueStates hs, Option.bind_some] at hk
      exact hd c ((ha.before _).determined?_eq hb hk)
    · rw [Function.update_of_ne hp] at hv
      exact ha position c v hk hv
  | fallThrough _ _ _ => exact ha
  | branch _ _ _ => exact ha
  | jump _ => exact ha

/-- In every state of a run what is bound agrees with what the sweep has found. -/
theorem Reachable.agrees (h : f.Reachable ctx arguments σ) : σ.Agrees (f.valueStates ctx) := by
  induction h with
  | initial => exact fun _ _ _ _ hb ↦ absurd hb (by simp [RunState.initial])
  | step _ hstep ih => exact hstep.agrees ih

/-- Control leaves a decided branch by the arm that is not dead. -/
theorem Step.decided (h : f.Step ctx arguments σ arm τ) (ha : σ.Agrees (f.valueStates ctx))
    {d : DecidedBranch} (hd : d ∈ (f.propagate ctx lookahead).decidedBranches)
    (hp : d.index = σ.position) :
    (∃ condition fallthroughIsTrue,
        f.statement? σ.position = some (.branch condition fallthroughIsTrue d.target) ∧
        σ.read? arguments condition = some (.const (.bool !d.eliminatedArm))) ∧
      (arm = .jump ↔ d.jumpIsDead = false) := by
  obtain ⟨condition, fallthroughIsTrue, hs, hk, hj, -⟩ := mem_decidedBranches.mp hd
  rw [hp] at hs hk
  cases h with
  | define hs' hproduces _ _ =>
    obtain rfl := Option.some.inj (hs.symm.trans hs')
    exact absurd hproduces (by simp [Statement.producesValue])
  | @fallThrough _ _ _ value hs' hb ht =>
    obtain ⟨rfl, rfl, -⟩ := Statement.branch.inj (Option.some.inj (hs.symm.trans hs'))
    obtain rfl := (ha.before _).read?_eq hk hb
    refine ⟨⟨_, _, hs, hb⟩, ?_⟩
    simp_all [RunValue.truth?, RunValue.constant?, Constant.asBool?]
  | @branch _ _ _ value hs' hb ht =>
    obtain ⟨rfl, rfl, -⟩ := Statement.branch.inj (Option.some.inj (hs.symm.trans hs'))
    obtain rfl := (ha.before _).read?_eq hk hb
    refine ⟨⟨_, _, hs, hb⟩, ?_⟩
    simp_all [RunValue.truth?, RunValue.constant?, Constant.asBool?]
  | jump hs' => exact absurd (hs.symm.trans hs') (by simp)

/-- A step goes along a live arm. -/
theorem Step.flows (h : f.Step ctx arguments σ arm τ) (ha : σ.Agrees (f.valueStates ctx))
    (lookahead : Nat) :
    f.Flows (f.propagate ctx lookahead).liveArms σ.position τ.position := by
  refine ⟨arm, ?_, ?_⟩
  · intro hjump
    by_contra hdead
    obtain ⟨d, hd, hp, hj⟩ := exists_of_jumpIsDead (Bool.not_eq_false _ ▸ hdead)
    have hlive := (h.decided ha hd hp).2.mp hjump
    rw [hj] at hlive
    exact Bool.noConfusion hlive
  · cases h with
    | define hs hp _ _ =>
      exact leadsTo?_next.mpr ⟨⟨_, hs, Statement.fallsThrough_of_producesValue hp⟩, rfl⟩
    | fallThrough hs _ _ => exact leadsTo?_next.mpr ⟨⟨_, hs, rfl⟩, rfl⟩
    | branch hs _ _ => exact leadsTo?_jump.mpr ⟨_, hs, rfl⟩
    | jump hs => exact leadsTo?_jump.mpr ⟨_, hs, rfl⟩

/-- A run stays where live arms lead. -/
theorem Reachable.reaches (h : f.Reachable ctx arguments σ) (lookahead : Nat) :
    f.Reaches (f.propagate ctx lookahead).liveArms 1 σ.position := by
  induction h with
  | initial => exact .refl
  | step hσ hstep ih => exact ih.tail (hstep.flows hσ.agrees lookahead)

/-- In every state of a run the bound values are the constants that propagation knows them to be,
and when a run executes a decided branch its condition is not the value under which the dead arm
would run, so control leaves by the other arm. -/
theorem propagate_sound (h : f.Reachable ctx arguments σ) (lookahead : Nat) :
    (∀ position c v, (f.propagate ctx lookahead).constant? position = some c →
        σ.bindings position = some v → v = .const c) ∧
      ∀ d ∈ (f.propagate ctx lookahead).decidedBranches, d.index = σ.position →
        ∀ arm τ, f.Step ctx arguments σ arm τ →
          (∃ condition fallthroughIsTrue,
            f.statement? σ.position = some (.branch condition fallthroughIsTrue d.target) ∧
            σ.read? arguments condition = some (.const (.bool !d.eliminatedArm))) ∧
          (arm = .jump ↔ d.jumpIsDead = false) :=
  ⟨h.agrees, fun _ hd hp _ _ hstep ↦ hstep.decided h.agrees hd hp⟩

/-- A loop with a branch that never leaves it. -/
def spinLoop : Func where
  name := "spin"
  parameterTypes := []
  body := #[
    .literal (.bool false) .bool,
    .call "!" [.value 1] .bool,
    .branch (.value 2) true 5,
    .jump 2,
    .ret none]

/-- In the second iteration the branch leaves the loop no more than in the first. -/
theorem propagate_sound_spinLoop :
    ∃ σ : RunState Unit, spinLoop.Reachable .initial (fun _ ↦ .object ()) σ ∧ σ.position = 3 ∧
      ⟨3, false, 0, true, 5⟩ ∈ (spinLoop.propagate .initial 20).decidedBranches ∧
      (∃ τ, spinLoop.Step .initial (fun _ ↦ .object ()) σ .next τ) ∧
      ∀ arm τ, spinLoop.Step .initial (fun _ ↦ .object ()) σ arm τ → arm ≠ .jump := by
  have hd : ⟨3, false, 0, true, 5⟩ ∈ (spinLoop.propagate .initial 20).decidedBranches := by
    decide +kernel
  have hliteral : spinLoop.Reachable .initial (fun _ ↦ .object ())
      (RunState.initial.define (.const (.bool false)) : RunState Unit) :=
    .step .initial (.define rfl rfl (by decide) fun _ hc ↦ congrArg _ (Option.some.inj hc))
  have hfirst : spinLoop.Reachable .initial (fun _ ↦ .object ())
      ((RunState.initial.define (.const (.bool false))).define (.const (.bool true)) :
        RunState Unit) :=
    hliteral.step (.define rfl rfl (by decide) fun _ hc ↦ congrArg _ (Option.some.inj hc))
  have hback := (hfirst.step (.fallThrough rfl rfl (by decide))).step (.jump rfl)
  have hsecond : spinLoop.Reachable .initial (fun _ ↦ .object ()) (RunState.define _ _) :=
    hback.step (.define rfl rfl (by decide) fun _ hc ↦ congrArg _ (Option.some.inj hc))
  refine ⟨_, hsecond, rfl, hd, ⟨_, .fallThrough rfl rfl (by decide)⟩, ?_⟩
  intro arm τ hstep hjump
  have hlive := ((propagate_sound hsecond 20).2 _ hd rfl arm τ hstep).2.mp hjump
  exact Bool.noConfusion hlive

end Func
end SsaAdvisor
