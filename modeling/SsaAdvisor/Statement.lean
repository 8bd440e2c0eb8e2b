import SsaAdvisor.Constant.Basic

/-!
# Statements

A function body is a list of statements, numbered from one. Literals, global reads and calls define
the value that bears their number; operands name such values, parameters or immediate constants.

Follows `Operand` and `Statement`, their queries and their written forms.
Spec guidance: `SPEC_FULL.md` §§3, 10.1.
-/

namespace SsaAdvisor

/-- What a statement reads. -/
inductive Operand where
  /-- The value defined by the statement at this position. -/
  | value (position : Nat)
  /-- The parameter at this position, counted from one. -/
  | argument (position : Nat)
  /-- An immediate constant. -/
  | const (value : Constant)
deriving Inhabited

namespace Operand

/-- The position of the value that the operand names. -/
def asValue? : Operand → Option Nat
  | .value position => some position
  | _ => none

/-- Whether the operand names the value at the given position. -/
def isValue (op : Operand) (position : Nat) : Bool := op.asValue? == some position

/-- The written form of an operand. -/
def text : Operand → String
  | .value position => s!"#{position}"
  | .argument position => s!"arg{position}"
  | .const c => c.text

end Operand

/-- One statement of a function body. -/
inductive Statement where
  /-- Define a constant. -/
  | literal (value : Constant) (ty : Ty)
  /-- Read a global binding; the binding of an immutable one never changes. -/
  | globalRead (symbol : String) (ty : Ty) (isImmutable : Bool)
  /-- Call a method by name. -/
  | call (callee : String) (args : List Operand) (resultType : Ty)
  /-- Continue with the next statement if the condition equals `fallthroughIsTrue`, else at the
  target. -/
  | branch (condition : Operand) (fallthroughIsTrue : Bool) (target : Nat)
  /-- Continue at the target. -/
  | jump (target : Nat)
  /-- Leave the function. -/
  | ret (value : Option Operand)
deriving Inhabited

namespace Statement

/-- The declared type of the value that the statement defines. -/
def valueType? : Statement → Option Ty
  | .literal _ ty | .globalRead _ ty _ => some ty
  | .call _ _ resultType => some resultType
  | .branch .. | .jump _ | .ret _ => none

/-- Whether the statement defines a value. -/
def producesValue : Statement → Bool
  | .literal .. | .globalRead .. | .call .. => true
  | .branch .. | .jump _ | .ret _ => false

/-- Whether the statement is a branch, a jump or a return. -/
def isControlTransfer (s : Statement) : Bool := !s.producesValue

/-- The target of a branch or jump. -/
def jumpTarget? : Statement → Option Nat
  | .branch _ _ target | .jump target => some target
  | _ => none

/-- The statement with another target, if it has one. -/
def withTarget? (target : Nat) : Statement → Option Statement
  | .branch condition fallthroughIsTrue _ => some (.branch condition fallthroughIsTrue target)
  | .jump _ => some (.jump target)
  | _ => none

/-- The name that a call calls. -/
def callee? : Statement → Option String
  | .call callee _ _ => some callee
  | _ => none

/-- The operands in the order in which they are written. -/
def operands : Statement → List Operand
  | .call _ args _ => args
  | .branch condition _ _ => [condition]
  | .ret (some value) => [value]
  | .literal .. | .globalRead .. | .jump _ | .ret none => []

/-- Whether an operand of the statement names the value at the given position. -/
def usesValue (s : Statement) (position : Nat) : Bool := s.operands.any (·.isValue position)

/-- The written form of a statement. -/
def text : Statement → String
  | .literal value ty => value.text ++ "::" ++ ty.text
  | .globalRead symbol ty isImmutable =>
    (if isImmutable then "const " else "") ++ "global " ++ symbol ++ "::" ++ ty.text
  | .call callee args resultType =>
    callee ++ "(" ++ Ty.commaSeparated (args.map Operand.text) ++ ")::" ++ resultType.text
  | .branch condition fallthroughIsTrue target =>
    (if fallthroughIsTrue then "goto_if_not " else "goto_if ") ++ condition.text
      ++ s!" -> #{target}"
  | .jump target => s!"goto #{target}"
  | .ret (some value) => "return " ++ value.text
  | .ret none => "return"

/-- The statements that define a value are those that declare its type. -/
theorem producesValue_eq (s : Statement) : s.producesValue = s.valueType?.isSome := by
  cases s <;> rfl

/-- A retargeted statement has the new target. -/
theorem jumpTarget?_of_withTarget? {s s' : Statement} {target : Nat}
    (h : s.withTarget? target = some s') : s'.jumpTarget? = some target := by
  cases s <;> simp_all [withTarget?] <;> subst h <;> rfl

end Statement
end SsaAdvisor
