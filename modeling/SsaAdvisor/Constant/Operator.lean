import SsaAdvisor.Constant.Arithmetic

/-!
# Operators that fold

A call is computed ahead of time only if its callee names one of these operators and the checked
operation on its arguments has a result; a wrong number of arguments has none.

Follows `PureOp::from_callee` and `evaluate`.
Spec guidance: `SPEC_FULL.md` §§4.2, 10.3.
-/

namespace SsaAdvisor

/-- An operator without side effects. -/
inductive Operator where
  | add | sub | mul | div | intDiv | rem | mod | pow | neg
  | eq | ne | lt | le | gt | ge
  | not | and | or | xor
  | abs | min | max
  | sqrt | exp | log | sin | cos
  | floor | ceil | round
deriving DecidableEq, Repr

namespace Operator

/-- All operators, in their customary order. -/
def all : List Operator :=
  [.add, .sub, .mul, .div, .intDiv, .rem, .mod, .pow, .neg,
    .eq, .ne, .lt, .le, .gt, .ge,
    .not, .and, .or, .xor,
    .abs, .min, .max,
    .sqrt, .exp, .log, .sin, .cos,
    .floor, .ceil, .round]

/-- The name of an operator. -/
def symbol : Operator → String
  | .add => "+"
  | .sub => "-"
  | .mul => "*"
  | .div => "/"
  | .intDiv => "div"
  | .rem => "rem"
  | .mod => "mod"
  | .pow => "^"
  | .neg => "neg"
  | .eq => "=="
  | .ne => "!="
  | .lt => "<"
  | .le => "<="
  | .gt => ">"
  | .ge => ">="
  | .not => "!"
  | .and => "&"
  | .or => "|"
  | .xor => "xor"
  | .abs => "abs"
  | .min => "min"
  | .max => "max"
  | .sqrt => "sqrt"
  | .exp => "exp"
  | .log => "log"
  | .sin => "sin"
  | .cos => "cos"
  | .floor => "floor"
  | .ceil => "ceil"
  | .round => "round"

/-- The second spelling of an operator, for the two that have one. -/
def alias? : Operator → Option String
  | .intDiv => some "÷"
  | .rem => some "%"
  | _ => none

/-- The operator that a callee names. Follows `PureOp::from_callee`. -/
def ofCallee? (callee : String) : Option Operator :=
  all.find? fun op ↦ op.symbol == callee || op.alias? == some callee

/-- Combine one or more numbers from left to right. -/
def chain? (combine : Constant → Constant → Option Constant) : List Constant → Option Constant
  | [] => none
  | first :: rest => if first.isNumeric then rest.foldlM combine first else none

/-- The result of an operator on constant arguments, if it is a well-defined constant.
Follows `PureOp::evaluate`. -/
def evaluate? : Operator → List Constant → Option Constant
  | .add, args => chain? Constant.add? args
  | .mul, args => chain? Constant.mul? args
  | .sub, [a] => a.negate?
  | .neg, [a] => a.negate?
  | .sub, [a, b] => a.sub? b
  | .div, [a, b] => a.div? b
  | .intDiv, [a, b] => a.intDiv? b
  | .rem, [a, b] => a.rem? b
  | .mod, [a, b] => a.mod? b
  | .pow, [a, b] => a.pow? b
  | .eq, [a, b] => (a.equal? b).map .bool
  | .ne, [a, b] => (a.equal? b).map fun same ↦ .bool !same
  | .lt, [a, b] => (a.less? b).map .bool
  | .le, [a, b] => (a.lessEqual? b).map .bool
  | .gt, [a, b] => (b.less? a).map .bool
  | .ge, [a, b] => (b.lessEqual? a).map .bool
  | .not, [a] => a.not?
  | .and, [a, b] => a.and? b
  | .or, [a, b] => a.or? b
  | .xor, [a, b] => a.xor? b
  | .abs, [a] => a.abs?
  | .min, [a, b] => a.min? b
  | .max, [a, b] => a.max? b
  | .sqrt, [a] => a.mapFloat? Float.sqrt
  | .exp, [a] => a.mapFloat? Float.exp
  | .log, [a] => a.mapFloat? Float.log
  | .sin, [a] => a.mapFloat? Float.sin
  | .cos, [a] => a.mapFloat? Float.cos
  | .floor, [a] => a.integral? Float.floor
  | .ceil, [a] => a.integral? Float.ceil
  | .round, [a] => a.integral? Binary64.roundHalfEven
  | _, _ => none

/-- Every operator is listed. -/
theorem mem_all (op : Operator) : op ∈ all := by cases op <;> decide

/-- An operator is found under its own name. -/
theorem ofCallee?_symbol (op : Operator) : ofCallee? op.symbol = some op := by
  cases op <;> decide +kernel

end Operator
end SsaAdvisor
