import Mathlib.Data.Prod.Lex
import Mathlib.Order.WithBot
import SsaAdvisor.Func.Defect

/-!
# The first defect of a body

What a well-formed body is and what may be wrong with one are said here apart from any scan. A
violation has a place: the statement, and in it the number of an operand or, behind all operands,
the target. Main statement: the well-formed bodies are accepted, and of any other body the violation
at the least place is reported.
-/

namespace SsaAdvisor

/-- Literals, global reads and calls define a value. -/
inductive Statement.DefinesValue : Statement → Prop
  | literal (c : Constant) (ty : Ty) : DefinesValue (.literal c ty)
  | globalRead (symbol : String) (ty : Ty) (isImmutable : Bool) :
    DefinesValue (.globalRead symbol ty isImmutable)
  | call (callee : String) (args : List Operand) (resultType : Ty) :
    DefinesValue (.call callee args resultType)

/-- The test whether a statement defines a value tells these statements from the others. -/
theorem Statement.definesValue_iff {s : Statement} :
    s.DefinesValue ↔ s.producesValue = true := by
  constructor
  · rintro (_ | _ | _)
    · rfl
    · rfl
    · rfl
  · intro hv
    cases s with
    | literal c ty => exact .literal c ty
    | globalRead symbol ty isImmutable => exact .globalRead symbol ty isImmutable
    | call callee args resultType => exact .call callee args resultType
    | _ => cases hv

namespace Func

/-- A body that is not empty, whose operands name declared parameters and values of other
statements, and whose targets lie in the body. -/
structure WellFormed (f : Func) : Prop where
  nonempty : 1 ≤ f.size
  value : ∀ i s n, f.statement? i = some s → .value n ∈ s.operands →
    1 ≤ n ∧ n ≤ f.size ∧ n ≠ i ∧ ∃ s', f.statement? n = some s' ∧ s'.DefinesValue
  argument : ∀ i s p, f.statement? i = some s → .argument p ∈ s.operands →
    1 ≤ p ∧ p ≤ f.parameterTypes.length
  target : ∀ i s t, f.statement? i = some s → s.jumpTarget? = some t → 1 ≤ t ∧ t ≤ f.size

/-- What may be wrong with an operand of the statement at a position. -/
inductive OperandViolation (f : Func) (i : Nat) : Operand → Defect → Prop
  | dangling {n : Nat} : n = 0 ∨ f.size < n ∨ n = i →
    OperandViolation f i (.value n) (.danglingReference i n)
  | notAValue {n : Nat} {s : Statement} : n ≠ i → f.statement? n = some s → ¬ s.DefinesValue →
    OperandViolation f i (.value n) (.notAValue i n)
  | argument {p : Nat} : p = 0 ∨ f.parameterTypes.length < p →
    OperandViolation f i (.argument p) (.invalidArgument i p f.parameterTypes.length)

/-- A place in a body: the position of a statement, and the number of an operand or, for the target,
`⊤`. Places are ordered by statement first. -/
abbrev Place := Nat ×ₗ WithTop Nat

/-- The place of an operand of the statement at a position. -/
def Place.operand (i k : Nat) : Place := toLex (i, WithTop.some k)

/-- The place of the target of the statement at a position. -/
def Place.target (i : Nat) : Place := toLex (i, ⊤)

/-- What may be wrong with a body, each with its place. -/
inductive Violation (f : Func) : Place → Defect → Prop
  | operand {i k : Nat} {s : Statement} {op : Operand} {defect : Defect} :
    f.statement? i = some s → s.operands[k]? = some op → f.OperandViolation i op defect →
      Violation f (.operand i k) defect
  | target {i t : Nat} {s : Statement} :
    f.statement? i = some s → s.jumpTarget? = some t → t = 0 ∨ f.size < t →
      Violation f (.target i) (.invalidJumpTarget i t)

variable {f : Func} {i : Nat} {s : Statement} {op : Operand} {place : Place} {defect : Defect}

private theorem parameterType?_eq_none_iff {p : Nat} :
    f.parameterType? p = none ↔ p = 0 ∨ f.parameterTypes.length < p := by
  unfold parameterType?
  split
  · simp_all
  · rw [List.getElem?_eq_none_iff]
    omega

private theorem operandDefect?_argument_eq_some_iff {p : Nat} :
    f.operandDefect? i (.argument p) = some defect ↔ f.OperandViolation i (.argument p) defect := by
  have hcheck : f.operandDefect? i (.argument p) = some defect ↔
      f.parameterType? p = none ∧ .invalidArgument i p f.parameterTypes.length = defect := by
    cases hp : f.parameterType? p <;> simp [operandDefect?, operandType, hp]
  rw [hcheck, parameterType?_eq_none_iff]
  constructor
  · rintro ⟨hp, rfl⟩
    exact .argument hp
  · intro hviolation
    cases hviolation with
    | argument hp => exact ⟨hp, rfl⟩

private theorem operandDefect?_value_eq_some_iff {n : Nat} :
    f.operandDefect? i (.value n) = some defect ↔ f.OperandViolation i (.value n) defect := by
  rw [operandDefect?]
  split
  · next hout =>
    rw [Option.some_inj]
    constructor
    · rintro rfl
      exact .dangling hout
    · intro hviolation
      cases hviolation with
      | dangling => rfl
      | notAValue hne hs =>
        have hbounds := bounds_of_statement? hs
        omega
  · next hin =>
    have hbounds : 1 ≤ n ∧ n ≤ f.size := by omega
    have hs := statement?_eq_statementAt hbounds
    constructor
    · intro hcheck
      split at hcheck
      · cases hcheck
      · next hv =>
        obtain rfl := Option.some.inj hcheck
        exact .notAValue (by omega) hs (mt Statement.definesValue_iff.mp hv)
    · intro hviolation
      cases hviolation with
      | dangling hout => exact absurd hout hin
      | notAValue _ hs' hv =>
        cases hs.symm.trans hs'
        rw [if_neg (mt Statement.definesValue_iff.mpr hv)]

/-- The check of an operand finds what is wrong with it. -/
theorem operandDefect?_eq_some_iff :
    f.operandDefect? i op = some defect ↔ f.OperandViolation i op defect := by
  cases op with
  | value n => exact operandDefect?_value_eq_some_iff
  | argument p => exact operandDefect?_argument_eq_some_iff
  | const c => exact ⟨nofun, nofun⟩

/-- The check of a target finds whether it lies in the body. -/
theorem targetDefect?_eq_some_iff :
    f.targetDefect? s i = some defect ↔
      ∃ t, s.jumpTarget? = some t ∧ (t = 0 ∨ f.size < t) ∧ defect = .invalidJumpTarget i t := by
  unfold targetDefect?
  rw [Option.bind_eq_some_iff]
  refine exists_congr fun t ↦ and_congr_right fun _ ↦ ?_
  split
  · next hbounds =>
    refine ⟨nofun, ?_⟩
    rintro ⟨hout, -⟩
    omega
  · next hbounds =>
    rw [Option.some_inj, eq_comm]
    refine ⟨fun hd ↦ ⟨by omega, hd⟩, And.right⟩

/-- What is wrong with a numbered statement, in the order of its places. -/
def defectsOf (f : Func) : Statement × Nat → List (Place × Defect)
  | (s, i) =>
    (s.operands.zipIdx.filterMap fun (op, k) ↦ (f.operandDefect? i op).map (Place.operand i k, ·))
      ++ ((f.targetDefect? s i).map (Place.target i, ·)).toList

/-- What is wrong with the statements of a body, in the order of places. -/
def defects (f : Func) : List (Place × Defect) := f.numbered.flatMap f.defectsOf

private theorem mem_defectsOf :
    (place, defect) ∈ f.defectsOf (s, i) ↔
      (∃ k op, s.operands[k]? = some op ∧ f.OperandViolation i op defect ∧
        place = .operand i k) ∨
      ∃ t, s.jumpTarget? = some t ∧ (t = 0 ∨ f.size < t) ∧ defect = .invalidJumpTarget i t ∧
        place = .target i := by
  rw [defectsOf, List.mem_append, List.mem_filterMap, Option.mem_toList, Option.map_eq_some_iff]
  simp only [Prod.exists, List.mem_zipIdx_iff_getElem?, Option.map_eq_some_iff, Prod.mk.injEq,
    operandDefect?_eq_some_iff, targetDefect?_eq_some_iff]
  constructor
  · rintro (⟨op, k, ho, _, hviolation, rfl, rfl⟩ | ⟨_, ⟨t, ht, hout, rfl⟩, rfl, rfl⟩)
    · exact .inl ⟨k, op, ho, hviolation, rfl⟩
    · exact .inr ⟨t, ht, hout, rfl, rfl⟩
  · rintro (⟨k, op, ho, hviolation, rfl⟩ | ⟨t, ht, hout, rfl, rfl⟩)
    · exact .inl ⟨op, k, ho, defect, hviolation, rfl, rfl⟩
    · exact .inr ⟨_, ⟨t, ht, hout, rfl⟩, rfl, rfl⟩

/-- The violations of a body are those that the checks find. -/
theorem mem_defects : (place, defect) ∈ f.defects ↔ f.Violation place defect := by
  simp only [defects, List.mem_flatMap, Prod.exists, mem_numbered, mem_defectsOf]
  constructor
  · rintro ⟨s, i, hs, ⟨k, op, ho, hviolation, rfl⟩ | ⟨t, ht, hout, rfl, rfl⟩⟩
    · exact .operand hs ho hviolation
    · exact .target hs ht hout
  · intro hviolation
    cases hviolation with
    | operand hs ho hviolation => exact ⟨_, _, hs, .inl ⟨_, _, ho, hviolation, rfl⟩⟩
    | target hs ht hout => exact ⟨_, _, hs, .inr ⟨_, ht, hout, rfl, rfl⟩⟩

private theorem fst_of_mem_defectsOf (hm : (place, defect) ∈ f.defectsOf (s, i)) :
    (ofLex place).1 = i := by
  rcases mem_defectsOf.mp hm with ⟨k, op, -, -, rfl⟩ | ⟨t, -, -, -, rfl⟩
  · rfl
  · rfl

private theorem pairwise_defectsOf (f : Func) (s : Statement) (i : Nat) :
    (f.defectsOf (s, i)).Pairwise (·.1 < ·.1) := by
  rw [defectsOf, List.pairwise_append]
  refine ⟨?_, ?_, ?_⟩
  · rw [List.pairwise_filterMap]
    apply (pairwise_zipIdx s.operands 0).imp
    rintro ⟨op, k⟩ ⟨op', k'⟩ hlt a ha b hb
    obtain ⟨d, -, rfl⟩ := Option.map_eq_some_iff.mp ha
    obtain ⟨d', -, rfl⟩ := Option.map_eq_some_iff.mp hb
    exact Prod.Lex.toLex_lt_toLex.mpr (.inr ⟨rfl, WithTop.coe_lt_coe.mpr hlt⟩)
  · cases f.targetDefect? s i <;> simp
  · intro a ha b hb
    obtain ⟨⟨op, k⟩, -, ha⟩ := List.mem_filterMap.mp ha
    obtain ⟨d, -, rfl⟩ := Option.map_eq_some_iff.mp ha
    obtain ⟨d', -, rfl⟩ := Option.map_eq_some_iff.mp (Option.mem_toList.mp hb)
    exact Prod.Lex.toLex_lt_toLex.mpr (.inr ⟨rfl, WithTop.coe_lt_top k⟩)

/-- The violations of a body are listed in the order of their places. -/
theorem pairwise_defects (f : Func) : f.defects.Pairwise (·.1 < ·.1) := by
  rw [defects, List.pairwise_flatMap]
  refine ⟨fun _ _ ↦ f.pairwise_defectsOf _ _, ?_⟩
  apply f.pairwise_numbered.imp
  rintro ⟨s, i⟩ ⟨s', i'⟩ hlt ⟨place, d⟩ hm ⟨place', d'⟩ hm'
  apply Prod.Lex.lt_iff.mpr
  rw [fst_of_mem_defectsOf hm, fst_of_mem_defectsOf hm']
  exact .inl hlt

private theorem statementDefect?_eq (f : Func) (s : Statement) (i : Nat) :
    f.statementDefect? s i = (f.defectsOf (s, i)).head?.map (·.2) := by
  have hoperands : s.operands.findSome? (f.operandDefect? i) =
      s.operands.zipIdx.findSome? (f.operandDefect? i ∘ Prod.fst) := by
    rw [← List.findSome?_map, List.zipIdx_map_fst]
  rw [statementDefect?, hoperands, defectsOf, List.head?_append, List.head?_filterMap,
    Option.map_or, List.map_findSome?, Option.head?_toList, Option.map_map]
  simp [Function.comp_def]

/-- The checks of a body stop at its first violation. -/
theorem findSome?_statementDefect? (f : Func) :
    f.numbered.findSome? (fun (s, i) ↦ f.statementDefect? s i) = f.defects.head?.map (·.2) := by
  simp only [statementDefect?_eq, defects, List.head?_flatMap, List.map_findSome?,
    Function.comp_def]

/-- The first violation of a body is the one at the least place. -/
theorem head?_defects_eq_some_iff :
    f.defects.head? = some (place, defect) ↔
      f.Violation place defect ∧ ∀ place' defect', f.Violation place' defect' → place ≤ place' := by
  simp only [← mem_defects]
  have hsorted := f.pairwise_defects
  cases hd : f.defects with
  | nil => simp
  | cons first rest =>
    rw [hd, List.pairwise_cons] at hsorted
    rw [List.head?_cons, Option.some_inj]
    constructor
    · rintro rfl
      refine ⟨List.mem_cons_self, fun place' defect' hm ↦ ?_⟩
      rcases List.mem_cons.mp hm with heq | hm
      · exact (congrArg Prod.fst heq).ge
      · exact (hsorted.1 _ hm).le
    · rintro ⟨hm, hleast⟩
      rcases List.mem_cons.mp hm with heq | hm
      · exact heq.symm
      · exact absurd (hsorted.1 _ hm) (hleast first.1 first.2 List.mem_cons_self).not_gt

private theorem size_pos_of_violation (hviolation : f.Violation place defect) : 1 ≤ f.size := by
  cases hviolation with
  | operand hs _ _ => exact (bounds_of_statement? hs).1.trans (bounds_of_statement? hs).2
  | target hs _ _ => exact (bounds_of_statement? hs).1.trans (bounds_of_statement? hs).2

private theorem WellFormed.not_violation (hf : f.WellFormed) : ¬ f.Violation place defect := by
  intro hviolation
  cases hviolation with
  | operand hs ho hviolation =>
    have hm := List.mem_of_getElem? ho
    cases hviolation with
    | dangling hdangling =>
      have hvalue := hf.value _ _ _ hs hm
      omega
    | notAValue _ hs' hv =>
      obtain ⟨-, -, -, s', hs'', hv'⟩ := hf.value _ _ _ hs hm
      cases hs'.symm.trans hs''
      exact hv hv'
    | argument hout =>
      have hargument := hf.argument _ _ _ hs hm
      omega
  | target hs ht hout =>
    have htarget := hf.target _ _ _ hs ht
    omega

private theorem wellFormed_of_not_violation (hsize : 1 ≤ f.size)
    (hnone : ∀ place defect, ¬ f.Violation place defect) : f.WellFormed where
  nonempty := hsize
  value i s n hs hm := by
    obtain ⟨k, ho⟩ := List.mem_iff_getElem?.mp hm
    have hin : ¬ (n = 0 ∨ f.size < n ∨ n = i) := fun hout ↦
      hnone _ _ (.operand hs ho (.dangling hout))
    obtain ⟨s', hs'⟩ : ∃ s', f.statement? n = some s' := by
      rw [← Option.ne_none_iff_exists', ne_eq, statement?_eq_none_iff]
      omega
    refine ⟨by omega, by omega, by omega, s', hs', ?_⟩
    by_contra hv
    exact hnone _ _ (.operand hs ho (.notAValue (by omega) hs' hv))
  argument i s p hs hm := by
    obtain ⟨k, ho⟩ := List.mem_iff_getElem?.mp hm
    have hin : ¬ (p = 0 ∨ f.parameterTypes.length < p) := fun hout ↦
      hnone _ _ (.operand hs ho (.argument hout))
    omega
  target i s t hs ht := by
    have hin : ¬ (t = 0 ∨ f.size < t) := fun hout ↦ hnone _ _ (.target hs ht hout)
    omega

/-- The first defect of a body is that of an empty body, or the violation at the least place. -/
theorem defect?_eq_some_iff :
    f.defect? = some defect ↔
      f.size = 0 ∧ defect = .emptyBody f.name ∨
      ∃ place, f.Violation place defect ∧
        ∀ place' defect', f.Violation place' defect' → place ≤ place' := by
  rw [defect?, findSome?_statementDefect?]
  split
  · next hempty =>
    have hsize : f.size = 0 := Array.isEmpty_iff_size_eq_zero.mp hempty
    rw [Option.some_inj]
    constructor
    · rintro rfl
      exact .inl ⟨hsize, rfl⟩
    · rintro (⟨-, rfl⟩ | ⟨place, hviolation, -⟩)
      · rfl
      · have := size_pos_of_violation hviolation
        omega
  · next hempty =>
    have hsize : f.size ≠ 0 := fun hzero ↦ hempty (Array.isEmpty_iff_size_eq_zero.mpr hzero)
    rw [or_iff_right (fun h ↦ hsize h.1), Option.map_eq_some_iff, Prod.exists]
    simp only [head?_defects_eq_some_iff, exists_eq_right]

/-- A body has no defect exactly if it is well formed. -/
theorem defect?_eq_none_iff : f.defect? = none ↔ f.WellFormed := by
  rw [defect?, findSome?_statementDefect?]
  split
  · next hempty =>
    have hsize : f.size = 0 := Array.isEmpty_iff_size_eq_zero.mp hempty
    refine iff_of_false nofun fun hf ↦ ?_
    have := hf.nonempty
    omega
  · next hempty =>
    have hsize : f.size ≠ 0 := fun hzero ↦ hempty (Array.isEmpty_iff_size_eq_zero.mpr hzero)
    rw [Option.map_eq_none_iff, List.head?_eq_none_iff, List.eq_nil_iff_forall_not_mem, Prod.forall]
    simp only [mem_defects]
    exact ⟨wellFormed_of_not_violation (by omega), fun hf _ _ ↦ hf.not_violation⟩

/-- A body is accepted exactly if it is well formed. Otherwise the defect reported is that of an
empty body, or the violation whose place comes first: statement by statement, in a statement operand
by operand, and the target last. -/
theorem validate_reports_least_violation (f : Func) :
    (f.validate = .ok () ↔ f.WellFormed) ∧
    ∀ defect, f.validate = .error defect ↔
      f.size = 0 ∧ defect = .emptyBody f.name ∨
      ∃ place, f.Violation place defect ∧
        ∀ place' defect', f.Violation place' defect' → place ≤ place' := by
  refine ⟨?_, fun defect ↦ ?_⟩
  · rw [validate_eq_ok_iff, defect?_eq_none_iff]
  · rw [validate_eq_error_iff, defect?_eq_some_iff]

-- of four violations in two statements, the one of the first statement's operand is reported
example :
    (Func.mk "mixed" []
        #[.branch (.argument 1) true 9, .call "g" [.value 2, .value 1] .top]).validate
      = .error (.invalidArgument 1 1 0) := by
  decide +kernel

end Func
end SsaAdvisor
