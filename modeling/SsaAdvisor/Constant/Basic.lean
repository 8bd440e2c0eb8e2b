import SsaAdvisor.Decimal.Layout
import SsaAdvisor.Text.Quoted
import SsaAdvisor.Ty.Basic

/-!
# Constants

The values that literals, immediate operands and known global bindings hold, with the partial views
of a constant as a truth value, an integer or a float, and its written form. A signaling NaN is a
constant of its own: a `Float` cannot hold one, and powers tell it from a quiet NaN.

Follows `ConstValue`, its views and its written form.
Spec guidance: `SPEC_FULL.md` §10.1.
-/

namespace SsaAdvisor

/-- A constant value. -/
inductive Constant where
  /-- A signed 64-bit integer. -/
  | int (value : Int64)
  /-- A binary64 number, infinity or quiet NaN. -/
  | float (value : Float)
  /-- A signaling NaN. Float functions give NaN for it, also where a quiet NaN would not matter. -/
  | signalingNaN
  /-- A truth value. -/
  | bool (value : Bool)
  /-- A text. -/
  | str (value : String)
  /-- The value that carries no information. -/
  | nothing
deriving Inhabited

namespace Constant

/-- The float constant with the given bits. -/
def ofFloatBits (bits : UInt64) : Constant :=
  if Binary64.isSignaling bits then .signalingNaN else .float (Float.ofBits bits)

/-- The concrete type of the constant. -/
def runtimeType : Constant → Ty
  | .int _ => .int
  | .float _ | .signalingNaN => .float
  | .bool _ => .bool
  | .str _ => .string
  | .nothing => .nothing

/-- The truth value held; an integer is none. -/
def asBool? : Constant → Option Bool
  | .bool value => some value
  | _ => none

/-- The integer held. -/
def asInt? : Constant → Option Int64
  | .int value => some value
  | _ => none

/-- The number held, as a float. Integers beyond `2 ^ 53` in magnitude may have no exact float and
have none here, so that no mixed operation rounds its operands. -/
def asFloat? : Constant → Option Float
  | .int value => if value.toInt.natAbs ≤ Nat.pow 2 53 then some (Float.ofInt value.toInt) else none
  | .float value => some value
  | .signalingNaN => some Binary64.nan
  | _ => none

/-- Whether the constant is a float. -/
def isFloat : Constant → Bool
  | .float _ | .signalingNaN => true
  | _ => false

/-- Whether the constant is an integer or a float. -/
def isNumeric : Constant → Bool
  | .int _ => true
  | c => c.isFloat

/-- Floats are written positionally from `10 ^ -4` up to `10 ^ 16`, else in scientific form. -/
def floatLayout : Decimal.Layout := ⟨-4, 16⟩

/-- The written form of a constant. -/
def text : Constant → String
  | .int value => toString value.toInt
  | .float value => floatLayout.render value
  | .signalingNaN => floatLayout.render Binary64.nan
  | .bool value => if value then "true" else "false"
  | .str value => Text.quote value
  | .nothing => "nothing"

/-- The type of a constant is concrete. -/
theorem isConcrete_runtimeType (c : Constant) : c.runtimeType.isConcrete = true := by
  cases c <;> rfl

/-- The float image of a float constant has the constant's bits, as far as a `Float` keeps them. -/
theorem asFloat?_ofFloatBits (bits : UInt64) :
    (ofFloatBits bits).asFloat? = some (Float.ofBits bits) := by
  unfold ofFloatBits
  split
  · next h => rw [Binary64.float_ofBits_eq_nan h]; rfl
  · rfl

/-- Only numeric constants have a float image. -/
theorem isNumeric_of_asFloat? {c : Constant} {x : Float} (h : c.asFloat? = some x) :
    c.isNumeric = true := by
  cases c <;> simp_all [asFloat?, isNumeric, isFloat]

end Constant
end SsaAdvisor
