import SsaAdvisor.Func.Basic

/-!
# Defects of function bodies

A body is accepted if it is not empty, every operand names a value that another statement defines or
a declared parameter, and every target lies in the body. Otherwise the first defect is reported, in
order of statements, within a statement in order of operands, and the target last.

Follows `Function::validate`, `operand_type` and the messages of `Error`.
Spec guidance: `SPEC_FULL.md` §§7, 10.1.
-/

namespace SsaAdvisor

/-- Why a function, or a request to change one, is refused. -/
inductive Defect where
  /-- The body has no statement. -/
  | emptyBody (function : String)
  /-- An operand names a position without a statement, or its own statement. -/
  | danglingReference (statement reference : Nat)
  /-- An operand names a statement that defines no value. -/
  | notAValue (statement reference : Nat)
  /-- An operand names a parameter that is not declared. -/
  | invalidArgument (statement position count : Nat)
  /-- A branch or jump leads out of the body. -/
  | invalidJumpTarget (statement target : Nat)
  /-- The statement at this position has no target that could be changed. -/
  | notAJump (statement : Nat)
deriving DecidableEq, Repr

namespace Defect

/-- The text of a defect. -/
def message : Defect → String
  | .emptyBody function => "Function '" ++ function ++ "' has an empty body"
  | .danglingReference statement reference =>
    s!"Statement #{statement} references undefined value #{reference}"
  | .notAValue statement reference =>
    s!"Statement #{statement} references #{reference}, which defines no value"
  | .invalidArgument statement position count =>
    s!"Statement #{statement} references parameter {position} of {count}"
  | .invalidJumpTarget statement target =>
    s!"Statement #{statement} jumps to out-of-range target #{target}"
  | .notAJump statement => s!"#{statement} is not a branch or jump"

end Defect

namespace Func

/-- The type of an operand of the statement at a position. A value has the type that its statement
declares, also where it names its own statement. Follows `operand_type`. -/
def operandType (f : Func) (position : Nat) : Operand → Except Defect Ty
  | .value reference =>
    match f.statement? reference with
    | none => .error (.danglingReference position reference)
    | some s =>
      match s.valueType? with
      | none => .error (.notAValue position reference)
      | some ty => .ok ty
  | .argument parameter =>
    match f.parameterType? parameter with
    | none => .error (.invalidArgument position parameter f.parameterTypes.length)
    | some ty => .ok ty
  | .const c => .ok c.runtimeType

/-- The defect of an operand of the statement at a position: a value must be that of another
statement of the body which defines one, and a parameter must have a type. -/
def operandDefect? (f : Func) (position : Nat) : Operand → Option Defect
  | .value reference =>
    if hout : reference = 0 ∨ f.size < reference ∨ reference = position then
      some (.danglingReference position reference)
    else if (f.statementAt reference (by omega)).producesValue then none
    else some (.notAValue position reference)
  | .argument parameter =>
    match f.operandType position (.argument parameter) with
    | .error defect => some defect
    | .ok _ => none
  | .const _ => none

/-- The defect of the target of the statement at a position. -/
def targetDefect? (f : Func) (s : Statement) (position : Nat) : Option Defect :=
  s.jumpTarget?.bind fun target ↦
    if 1 ≤ target ∧ target ≤ f.size then none else some (.invalidJumpTarget position target)

/-- The first defect of the statement at a position. -/
def statementDefect? (f : Func) (s : Statement) (position : Nat) : Option Defect :=
  (s.operands.findSome? (f.operandDefect? position)).or (f.targetDefect? s position)

/-- The first defect of a function. -/
def defect? (f : Func) : Option Defect :=
  if f.body.isEmpty then some (.emptyBody f.name)
  else f.numbered.findSome? fun (s, position) ↦ f.statementDefect? s position

/-- Accept a function or report its first defect. Follows `Function::validate`. -/
def validate (f : Func) : Except Defect Unit :=
  match f.defect? with
  | some defect => .error defect
  | none => .ok ()

/-- The check of an operand agrees with its type: unless the operand names its own statement, its
defect is the one for which it has no type. -/
theorem operandDefect?_eq (f : Func) (position : Nat) (op : Operand) :
    f.operandDefect? position op =
      if op.isValue position then some (.danglingReference position position)
      else
        match f.operandType position op with
        | .error defect => some defect
        | .ok _ => none := by
  cases op with
  | const c => rfl
  | argument parameter => rfl
  | value reference =>
    by_cases hself : reference = position
    · simp [operandDefect?, Operand.isValue, Operand.asValue?, hself]
    · have hother : (Operand.value reference).isValue position = false := by
        simp [Operand.isValue, Operand.asValue?, hself]
      rw [operandDefect?, hother]
      split
      · next hout =>
        have hnone : f.statement? reference = none := by
          rw [statement?_eq_none_iff]
          omega
        simp [operandType, hnone]
      · next hin =>
        have hbounds : 1 ≤ reference ∧ reference ≤ f.size := by omega
        rw [operandType, statement?_eq_statementAt hbounds, Statement.producesValue_eq]
        cases hty : (f.statementAt reference hbounds).valueType? <;> simp [hty]

/-- Acceptance is the absence of a defect. -/
theorem validate_eq_ok_iff {f : Func} : f.validate = .ok () ↔ f.defect? = none := by
  unfold validate
  split <;> simp_all

/-- What is reported is the first defect. -/
theorem validate_eq_error_iff {f : Func} {defect : Defect} :
    f.validate = .error defect ↔ f.defect? = some defect := by
  unfold validate
  split <;> simp_all

/-- In an accepted function no statement has a defect. -/
theorem statementDefect?_of_validate {f : Func} (hv : f.validate = .ok ()) {s : Statement}
    {position : Nat} (hs : f.statement? position = some s) :
    f.statementDefect? s position = none := by
  have hd := validate_eq_ok_iff.mp hv
  unfold defect? at hd
  split at hd
  · simp at hd
  · exact List.findSome?_eq_none_iff.mp hd _ (mem_numbered.mpr hs)

/-- In an accepted function no operand has a defect. -/
theorem operandDefect?_of_validate {f : Func} (hv : f.validate = .ok ()) {s : Statement}
    {position : Nat} (hs : f.statement? position = some s) {op : Operand} (ho : op ∈ s.operands) :
    f.operandDefect? position op = none :=
  List.findSome?_eq_none_iff.mp
    (Option.or_eq_none_iff.mp (statementDefect?_of_validate hv hs)).1 op ho

/-- In an accepted function every operand has a type. -/
theorem exists_operandType_of_validate {f : Func} (hv : f.validate = .ok ()) {s : Statement}
    {position : Nat} (hs : f.statement? position = some s) {op : Operand} (ho : op ∈ s.operands) :
    ∃ ty, f.operandType position op = .ok ty := by
  have hd := operandDefect?_of_validate hv hs ho
  rw [operandDefect?_eq] at hd
  split at hd
  · simp at hd
  · split at hd
    · simp at hd
    · next ty hty => exact ⟨ty, hty⟩

/-- In an accepted function every branch and jump leads into the body. -/
theorem bounds_of_jumpTarget?_of_validate {f : Func} (hv : f.validate = .ok ()) {s : Statement}
    {position target : Nat} (hs : f.statement? position = some s)
    (ht : s.jumpTarget? = some target) : 1 ≤ target ∧ target ≤ f.size := by
  have hd := (Option.or_eq_none_iff.mp (statementDefect?_of_validate hv hs)).2
  rw [targetDefect?, ht, Option.bind_some] at hd
  split at hd
  · next hbounds => exact hbounds
  · simp at hd

end Func
end SsaAdvisor
