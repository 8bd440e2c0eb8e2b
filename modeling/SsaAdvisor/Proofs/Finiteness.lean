import SsaAdvisor.Proofs.FloatRange
import SsaAdvisor.Proofs.Meaning

/-!
# Folding makes no NaN and no infinity

Most operations let only finite floats through. The others pass an operand on, negated or as a
float, and an operand that is finite stays so. Main statement: an operator on finite constants gives
a finite constant, and with finite constants in the body and in the context, whatever propagation
finds out is finite.
-/

namespace SsaAdvisor

namespace Constant

/-- Whether the constant is neither an infinite float nor a NaN. -/
def isFinite : Constant → Bool
  | .float x => x.isFinite
  | .signalingNaN => false
  | .int _ | .bool _ | .str _ | .nothing => true

/-- A result that is finite, if there is one. -/
def FiniteResult (result : Option Constant) : Prop := ∀ c, result = some c → c.isFinite = true

variable {a b c : Constant}

private theorem finiteResult_none : FiniteResult none := nofun

private theorem finiteResult_some (h : c.isFinite = true) : FiniteResult (some c) := by
  rintro _ ⟨⟩
  exact h

private theorem finiteResult_bind {α : Type} {r : Option α} {k : α → Option Constant}
    (h : ∀ x, r = some x → FiniteResult (k x)) : FiniteResult (r >>= k) := by
  cases r with
  | none => exact finiteResult_none
  | some x => exact h x rfl

private theorem finiteResult_map {α : Type} {make : α → Constant}
    (hmake : ∀ x, (make x).isFinite = true) (r : Option α) : FiniteResult (r.map make) := by
  cases r with
  | none => exact finiteResult_none
  | some x => exact finiteResult_some (hmake x)

private theorem finiteResult_finite? (x : Float) : FiniteResult (finite? x) := by
  unfold finite?
  split
  · next h => exact finiteResult_some h
  · exact finiteResult_none

private theorem isFinite_of_asFloat? {x : Float} (ha : a.isFinite = true)
    (h : a.asFloat? = some x) :
    x.isFinite = true := by
  cases a with
  | int v =>
    rw [asFloat?] at h
    split at h
    · next hv =>
      cases h
      exact Binary64.isFinite_ofInt hv
    · cases h
  | float y =>
    cases h
    exact ha
  | signalingNaN => cases ha
  | bool _ | str _ | nothing => cases h

/-! ## Operations -/

private theorem finiteResult_mapFloat? (f : Float → Float) (a : Constant) :
    FiniteResult (mapFloat? f a) :=
  finiteResult_bind fun _ _ ↦ finiteResult_finite? _

private theorem finiteResult_arithmetic? (exact : Int → Int → Int) (rounded : Float → Float → Float)
    (a b : Constant) : FiniteResult (arithmetic? exact rounded a b) := by
  unfold arithmetic?
  split
  · exact finiteResult_map (fun _ ↦ rfl) _
  · exact finiteResult_bind fun _ _ ↦ finiteResult_bind fun _ _ ↦ finiteResult_finite? _

private theorem finiteResult_negate? (ha : a.isFinite = true) : FiniteResult a.negate? := by
  cases a with
  | int v => exact finiteResult_map (fun _ ↦ rfl) _
  | float x => exact finiteResult_some (Binary64.isFinite_neg ha)
  | signalingNaN => cases ha
  | bool _ | str _ | nothing => exact finiteResult_none

private theorem finiteResult_abs? (a : Constant) : FiniteResult a.abs? := by
  unfold abs?
  split
  · exact finiteResult_map (fun _ ↦ rfl) _
  · exact finiteResult_mapFloat? _ _

private theorem finiteResult_div? (a b : Constant) : FiniteResult (a.div? b) := by
  refine finiteResult_bind fun x _ ↦ finiteResult_bind fun y _ ↦ ?_
  split
  · exact finiteResult_none
  · exact finiteResult_finite? _

private theorem finiteResult_intDiv? (a b : Constant) : FiniteResult (a.intDiv? b) := by
  unfold intDiv?
  split
  · exact finiteResult_map (fun _ ↦ rfl) _
  · exact finiteResult_none

private theorem finiteResult_rem? (a b : Constant) : FiniteResult (a.rem? b) := by
  unfold rem?
  split
  · exact finiteResult_map (fun _ ↦ rfl) _
  · refine finiteResult_bind fun x _ ↦ finiteResult_bind fun y _ ↦ ?_
    split
    · exact finiteResult_none
    · exact finiteResult_finite? _

private theorem finiteResult_mod? (a b : Constant) : FiniteResult (a.mod? b) := by
  unfold mod?
  split
  · exact finiteResult_map (fun _ ↦ rfl) _
  · exact finiteResult_none

private theorem finiteResult_pow? (a b : Constant) : FiniteResult (a.pow? b) := by
  unfold pow?
  split
  · exact finiteResult_map (fun _ ↦ rfl) _
  · exact finiteResult_none
  · exact finiteResult_none
  · exact finiteResult_bind fun _ _ ↦ finiteResult_bind fun _ _ ↦ finiteResult_finite? _

private theorem finiteResult_not? (a : Constant) : FiniteResult a.not? := by
  unfold not?
  split
  · exact finiteResult_some rfl
  · exact finiteResult_some rfl
  · exact finiteResult_none

private theorem finiteResult_bitwise? (onBool : Bool → Bool → Bool) (onWord : Int64 → Int64 → Int64)
    (a b : Constant) : FiniteResult (bitwise? onBool onWord a b) := by
  unfold bitwise?
  split
  · exact finiteResult_some rfl
  · exact finiteResult_some rfl
  · exact finiteResult_none

private theorem finiteResult_promote? (hc : c.isFinite = true) : FiniteResult (promote? a b c) := by
  unfold promote? widen?
  split
  · split
    · exact finiteResult_some hc
    · rintro _ h
      obtain ⟨x, hx, rfl⟩ := Option.map_eq_some_iff.mp h
      exact isFinite_of_asFloat? hc hx
  · exact finiteResult_some hc

private theorem finiteResult_min? (ha : a.isFinite = true) (hb : b.isFinite = true) :
    FiniteResult (a.min? b) := by
  refine finiteResult_bind fun isLess _ ↦ finiteResult_promote? ?_
  split <;> assumption

private theorem finiteResult_max? (ha : a.isFinite = true) (hb : b.isFinite = true) :
    FiniteResult (a.max? b) := by
  refine finiteResult_bind fun isLess _ ↦ finiteResult_promote? ?_
  split <;> assumption

private theorem finiteResult_integral? (f : Float → Float) (a : Constant) :
    FiniteResult (integral? f a) := by
  unfold integral?
  split
  · exact finiteResult_some rfl
  · exact finiteResult_finite? _
  · exact finiteResult_none

end Constant

namespace Operator

open Constant

variable {op : Operator} {args : List Constant}

private theorem finiteResult_chain? {combine : Constant → Constant → Option Constant}
    (hcombine : ∀ a b, FiniteResult (combine a b)) (hargs : ∀ c ∈ args, c.isFinite = true) :
    FiniteResult (chain? combine args) := by
  -- the sum so far is finite, be it the first number or a combination
  have hfold : ∀ (rest : List Constant) (acc : Constant), acc.isFinite = true →
      FiniteResult (rest.foldlM combine acc) := by
    intro rest
    induction rest with
    | nil => exact fun acc hacc ↦ finiteResult_some hacc
    | cons b rest ih =>
      intro acc _
      rw [List.foldlM_cons]
      exact finiteResult_bind fun next hnext ↦ ih next (hcombine acc b next hnext)
  cases args with
  | nil => exact finiteResult_none
  | cons first rest =>
    rw [chain?]
    split
    · exact hfold rest first (hargs first List.mem_cons_self)
    · exact finiteResult_none

private theorem finiteResult_one {a : Constant} (ha : a.isFinite = true) :
    FiniteResult (op.evaluate? [a]) := by
  cases op with
  | add | mul =>
    exact finiteResult_chain? (finiteResult_arithmetic? _ _) (List.forall_mem_singleton.mpr ha)
  | sub | neg => exact finiteResult_negate? ha
  | not => exact finiteResult_not? a
  | abs => exact finiteResult_abs? a
  | sqrt | exp | log | sin | cos => exact finiteResult_mapFloat? _ a
  | floor | ceil | round => exact finiteResult_integral? _ a
  | _ => exact finiteResult_none

private theorem finiteResult_two {a b : Constant} (ha : a.isFinite = true)
    (hb : b.isFinite = true) :
    FiniteResult (op.evaluate? [a, b]) := by
  cases op with
  | add | mul =>
    exact finiteResult_chain? (finiteResult_arithmetic? _ _)
      (List.forall_mem_cons.mpr ⟨ha, List.forall_mem_singleton.mpr hb⟩)
  | sub => exact finiteResult_arithmetic? _ _ a b
  | div => exact finiteResult_div? a b
  | intDiv => exact finiteResult_intDiv? a b
  | rem => exact finiteResult_rem? a b
  | mod => exact finiteResult_mod? a b
  | pow => exact finiteResult_pow? a b
  | eq | ne | lt | le | gt | ge => exact finiteResult_map (fun _ ↦ rfl) _
  | and | or | xor => exact finiteResult_bitwise? _ _ a b
  | min => exact finiteResult_min? ha hb
  | max => exact finiteResult_max? ha hb
  | _ => exact finiteResult_none

/-- An operator on finite constants gives a finite constant, if any. -/
theorem finiteResult_evaluate? (hargs : ∀ c ∈ args, c.isFinite = true) :
    FiniteResult (op.evaluate? args) := by
  match args with
  | [] => cases op <;> exact finiteResult_none
  | [a] => exact finiteResult_one (hargs a List.mem_cons_self)
  | [a, b] =>
    exact finiteResult_two (hargs a List.mem_cons_self)
      (hargs b (List.mem_cons_of_mem a List.mem_cons_self))
  | _ :: _ :: _ :: _ =>
    cases op with
    | add | mul => exact finiteResult_chain? (finiteResult_arithmetic? _ _) hargs
    | _ => exact finiteResult_none

end Operator

/-- The constants that a statement holds: that of a literal, or the immediate operands. -/
def Statement.constants : Statement → List Constant
  | .literal c _ => [c]
  | s => s.operands.filterMap fun
    | .const c => some c
    | .value _ | .argument _ => none

private theorem Statement.mem_constants_call {callee : String} {args : List Operand} {ty : Ty}
    {c : Constant} (h : .const c ∈ args) : c ∈ (Statement.call callee args ty).constants :=
  List.mem_filterMap.mpr ⟨_, h, rfl⟩

namespace Func

/-- Literals and immediate operands of the body are neither infinite nor NaN. -/
def HasFiniteConstants (f : Func) : Prop :=
  ∀ s ∈ f.body.toList, ∀ c ∈ s.constants, c.isFinite = true

instance (f : Func) : Decidable f.HasFiniteConstants :=
  inferInstanceAs (Decidable (∀ s ∈ f.body.toList, ∀ c ∈ s.constants, c.isFinite = true))

end Func

/-- The global bindings that the context supplies are neither infinite nor NaN. -/
def Context.HasFiniteGlobals (ctx : Context) : Prop :=
  ∀ symbol c, ctx.globalConstant? symbol = some c → c.isFinite = true

namespace Func

variable {f : Func} {ctx : Context} {position : Nat}

/-- The constants of a statement in the body. -/
theorem HasFiniteConstants.isFinite (hf : f.HasFiniteConstants) {s : Statement} {c : Constant}
    (hs : f.statement? position = some s) (hc : c ∈ s.constants) : c.isFinite = true :=
  hf s (List.fst_mem_of_mem_zipIdx (mem_numbered.mpr hs)) c hc

private theorem isFinite_of_operandMeaning? (hf : f.HasFiniteConstants) {callee : String}
    {args : List Operand} {ty : Ty} (hs : f.statement? position = some (.call callee args ty))
    (hvalues : ∀ i < position, ∀ c, f.meaning? ctx i = some c → c.isFinite = true)
    {operand : Operand} {c : Constant} (hoperand : operand ∈ args)
    (h : f.operandMeaning? ctx position operand = some c) : c.isFinite = true := by
  cases operand with
  | const c' =>
    rw [operandMeaning?] at h
    cases h
    exact hf.isFinite hs (Statement.mem_constants_call hoperand)
  | value i =>
    rw [operandMeaning?] at h
    split at h
    · next hi => exact hvalues i hi c h
    · cases h
  | argument i =>
    rw [operandMeaning?] at h
    cases h

/-- Among finite constants a value means a finite one. -/
theorem isFinite_of_meaning? (hf : f.HasFiniteConstants) (hctx : ctx.HasFiniteGlobals)
    {c : Constant} (h : f.meaning? ctx position = some c) : c.isFinite = true := by
  -- an operand that names a value means what an earlier statement defines
  induction position using Nat.strong_induction_on generalizing c with
  | _ position ih =>
    obtain ⟨ty, hs⟩ | ⟨symbol, ty, hs, hsupplied⟩ | ⟨callee, args, ty, hs, op, cs, -, hcs, hc⟩ :=
      meaning?_eq_some_iff.mp h
    · exact hf.isFinite hs List.mem_cons_self
    · exact hctx symbol c hsupplied
    · refine Operator.finiteResult_evaluate? (fun c' hc' ↦ ?_) c hc
      obtain ⟨operand, hoperand, hmeans⟩ := exists_mem_of_forall₂ (mapM_eq_some_iff.mp hcs).flip hc'
      exact isFinite_of_operandMeaning? hf hs (fun i hi _ ↦ ih i hi) hoperand hmeans

/-- Folding makes no NaN and no infinity. An operator on finite constants gives a finite constant,
if any, and where a body and its context hold only finite constants, propagation finds and records
no others. -/
theorem folding_stays_finite :
    (∀ (op : Operator) (args : List Constant), (∀ c ∈ args, c.isFinite = true) →
      ∀ c, op.evaluate? args = some c → c.isFinite = true) ∧
    ∀ (f : Func) (ctx : Context) (lookahead : Nat), f.HasFiniteConstants → ctx.HasFiniteGlobals →
      (∀ i c, (f.propagate ctx lookahead).constant? i = some c → c.isFinite = true) ∧
      ∀ r ∈ (f.propagate ctx lookahead).records, ∀ c, r.value = some c → c.isFinite = true := by
  refine ⟨fun _ _ ↦ Operator.finiteResult_evaluate?, fun f ctx lookahead hf hctx ↦ ⟨?_, ?_⟩⟩
  · intro i c h
    rw [constant?_propagate] at h
    exact isFinite_of_meaning? hf hctx h
  · intro r hr c h
    rw [(mem_records.mp hr).2.1] at h
    exact isFinite_of_meaning? hf hctx h

/-- A function that doubles the largest float, and takes the lesser of its negation and an
integer. -/
def doubledMaximum : Func where
  name := "doubled"
  parameterTypes := []
  body := #[
    .literal (.float (Float.ofBits 0x7FEFFFFFFFFFFFFF)) .float,
    .call "+" [.value 1, .value 1] .float,
    .call "neg" [.value 1] .float,
    .call "min" [.value 3, .const (.int 4)] .float,
    .ret (some (.value 4))]

/-- The sum that exceeds all floats is not found, the lesser operand is, and it is finite. -/
theorem folding_stays_finite_doubledMaximum :
    (doubledMaximum.propagate .initial 20).constant? 2 = none ∧
      ∃ c, (doubledMaximum.propagate .initial 20).constant? 4 = some c ∧ c.isFinite = true := by
  have hsum : ((doubledMaximum.propagate .initial 20).constant? 2).isSome = false := by
    decide +kernel
  have hlesser : ((doubledMaximum.propagate .initial 20).constant? 4).isSome = true := by
    decide +kernel
  have hconstants : doubledMaximum.HasFiniteConstants := by
    decide +kernel
  obtain ⟨c, hc⟩ := Option.isSome_iff_exists.mp hlesser
  exact ⟨by simpa using hsum, c, hc,
    (folding_stays_finite.2 _ .initial 20 hconstants nofun).1 4 c hc⟩

end Func

end SsaAdvisor
