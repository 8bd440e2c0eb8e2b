import SsaAdvisor.Constant.Basic

/-!
# Checked operations on constants

Every operation is partial. Integer operations are computed over the unbounded integers and have a
result only if it fits a signed 64-bit word; float operations have a result only if it is finite.
Integers that meet floats are widened first, and only where that is exact.

Follows the operations of `ConstValue`: `arith`, `finite`, `map_float` and those built on them.
Spec guidance: `SPEC_FULL.md` §§10.1, 10.3.
-/

namespace SsaAdvisor

/-- The word that holds an integer, if one does. -/
def word? (n : Int) : Option Int64 :=
  if Int64.minValue.toInt ≤ n ∧ n ≤ Int64.maxValue.toInt then some (Int64.ofInt n) else none

/-- A word is the checked word of its own value. -/
theorem toInt_of_word? {n : Int} {v : Int64} (h : word? n = some v) : v.toInt = n := by
  unfold word? at h
  split at h
  · next hn =>
    rw [← Option.some.inj h]
    exact Int64.toInt_ofInt_of_le hn.1 (Int.lt_of_le_of_lt hn.2 (by decide))
  · exact absurd h (by simp)

/-- There is no word exactly for the integers outside the range of words. -/
theorem word?_eq_none_iff {n : Int} :
    word? n = none ↔ n < Int64.minValue.toInt ∨ Int64.maxValue.toInt < n := by
  unfold word?
  split
  · simp only [reduceCtorEq, false_iff]
    omega
  · simp only [true_iff]
    omega

/-- Quotient of the division that rounds toward zero. It is undefined for a zero divisor, and where
the quotient exceeds every word: the least word divided by minus one. -/
def quotient? (a b : Int64) : Option Int64 :=
  if b.toInt = 0 then none else word? (a.toInt.tdiv b.toInt)

/-- Remainder with the sign of the dividend, defined where the quotient is. -/
def remainder? (a b : Int64) : Option Int64 :=
  (quotient? a b).bind fun _ ↦ word? (a.toInt.tmod b.toInt)

/-- Remainder with the sign of the divisor: that of the dividend, plus the divisor where the signs
differ. Follows `ConstValue::modulo`. -/
def modulus? (a b : Int64) : Option Int64 := do
  let r ← remainder? a b
  if r.toInt ≠ 0 ∧ decide (r.toInt < 0) ≠ decide (b.toInt < 0) then word? (r.toInt + b.toInt)
  else some r

/-- Power with an exponent from zero up to `2 ^ 32`. From the exponent 64 on only the powers of
minus one, zero and one fit a word, and those depend on no more than the exponent's parity. -/
def power? (a b : Int64) : Option Int64 :=
  if 0 ≤ b.toInt ∧ b.toInt < UInt32.size then
    let exponent := b.toInt.toNat
    if exponent < 64 then word? (a.toInt.pow exponent)
    else if a.toInt.natAbs ≤ 1 then word? (a.toInt.pow (2 + exponent % 2))
    else none
  else none

namespace Constant

/-- A float constant, unless it is infinite or not a number. Follows `finite`. -/
def finite? (x : Float) : Option Constant := if x.isFinite then some (.float x) else none

/-- Apply a float function to a number. Follows `map_float`. -/
def mapFloat? (f : Float → Float) (c : Constant) : Option Constant := do finite? (f (← c.asFloat?))

/-- Exact integer arithmetic on two integers, float arithmetic on other pairs of numbers.
Follows `arith`. -/
def arithmetic? (exact : Int → Int → Int) (rounded : Float → Float → Float) :
    Constant → Constant → Option Constant
  | .int a, .int b => (word? (exact a.toInt b.toInt)).map .int
  | a, b => do finite? (rounded (← a.asFloat?) (← b.asFloat?))

/-- Sum of two numbers. -/
def add? : Constant → Constant → Option Constant := arithmetic? (· + ·) (· + ·)

/-- Difference of two numbers. -/
def sub? : Constant → Constant → Option Constant := arithmetic? (· - ·) (· - ·)

/-- Product of two numbers. -/
def mul? : Constant → Constant → Option Constant := arithmetic? (· * ·) (· * ·)

/-- Negation of a number. -/
def negate? : Constant → Option Constant
  | .int a => (word? (-a.toInt)).map .int
  | .float x => some (.float (-x))
  | .signalingNaN => some .signalingNaN
  | _ => none

/-- Absolute value of a number. -/
def abs? : Constant → Option Constant
  | .int a => (word? a.toInt.natAbs).map .int
  | c => mapFloat? Float.abs c

/-- Float quotient of two numbers, undefined for a zero divisor. -/
def div? (a b : Constant) : Option Constant := do
  let x ← a.asFloat?
  let y ← b.asFloat?
  if y == 0 then none else finite? (x / y)

/-- Integer quotient, rounded toward zero. -/
def intDiv? : Constant → Constant → Option Constant
  | .int a, .int b => (quotient? a b).map .int
  | _, _ => none

/-- Remainder with the sign of the dividend, undefined for a zero divisor. -/
def rem? : Constant → Constant → Option Constant
  | .int a, .int b => (remainder? a b).map .int
  | a, b => do
    let x ← a.asFloat?
    let y ← b.asFloat?
    if y == 0 then none else finite? (Binary64.remainder x y)

/-- Integer remainder with the sign of the divisor. -/
def mod? : Constant → Constant → Option Constant
  | .int a, .int b => (modulus? a b).map .int
  | _, _ => none

/-- Power of two numbers; two integers need an exponent that is not negative. A quiet NaN to the
power zero is one, as is one to the power of a quiet NaN; a signaling NaN on either side leaves no
result. -/
def pow? : Constant → Constant → Option Constant
  | .int a, .int b => (power? a b).map .int
  | .signalingNaN, _ | _, .signalingNaN => none
  | a, b => do finite? ((← a.asFloat?).pow (← b.asFloat?))

/-- Equality of two constants of one kind, or of an integer and a float as numbers. -/
def equal? : Constant → Constant → Option Bool
  | .int a, .int b => some (a == b)
  | .bool a, .bool b => some (a == b)
  | .str a, .str b => some (a == b)
  | .nothing, .nothing => some true
  | a, b => do return (← a.asFloat?) == (← b.asFloat?)

/-- Order of two numbers, or of two texts by code point. -/
def less? : Constant → Constant → Option Bool
  | .int a, .int b => some (decide (a.toInt < b.toInt))
  | .str a, .str b => some (decide (a < b))
  | a, b => do return (← a.asFloat?) < (← b.asFloat?)

/-- Whether the first is less than or equal to the second, where both questions have an answer. -/
def lessEqual? (a b : Constant) : Option Bool := do
  let isLess ← a.less? b
  let isEqual ← a.equal? b
  return isLess || isEqual

/-- Negation of a truth value, complement of a word. -/
def not? : Constant → Option Constant
  | .bool a => some (.bool !a)
  | .int a => some (.int (~~~a))
  | _ => none

/-- A connective on two truth values, or its bitwise form on two words. -/
def bitwise? (onBool : Bool → Bool → Bool) (onWord : Int64 → Int64 → Int64) :
    Constant → Constant → Option Constant
  | .bool a, .bool b => some (.bool (onBool a b))
  | .int a, .int b => some (.int (onWord a b))
  | _, _ => none

/-- Conjunction. -/
def and? : Constant → Constant → Option Constant := bitwise? (· && ·) (· &&& ·)

/-- Disjunction. -/
def or? : Constant → Constant → Option Constant := bitwise? (· || ·) (· ||| ·)

/-- Exclusive disjunction. -/
def xor? : Constant → Constant → Option Constant := bitwise? (· ^^ ·) (· ^^^ ·)

/-- The number as a float constant; a float is its own. -/
def widen? (c : Constant) : Option Constant := if c.isFloat then some c else c.asFloat?.map .float

/-- The chosen one of two operands, as a float if either of the two is one.
Follows `promote_mixed`. -/
def promote? (a b chosen : Constant) : Option Constant :=
  if a.isFloat || b.isFloat then chosen.widen? else some chosen

/-- The lesser operand, the first one on equality. -/
def min? (a b : Constant) : Option Constant := do
  promote? a b (if ← a.lessEqual? b then a else b)

/-- The greater operand, the first one on equality. -/
def max? (a b : Constant) : Option Constant := do
  promote? a b (if ← a.less? b then b else a)

/-- Round a float with the given function; an integer is its own rounding. -/
def integral? (f : Float → Float) : Constant → Option Constant
  | .int a => some (.int a)
  | .float x => finite? (f x)
  | _ => none

end Constant
end SsaAdvisor
