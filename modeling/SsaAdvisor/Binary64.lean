/-!
# Exact operations on binary64 numbers

A finite binary64 number is `m * 2 ^ q` for a natural `m` and an integer `q`, up to its sign.
Operations whose exact result is again such a number are computed on `m` and `q` in unbounded
arithmetic, so that no rounding happens on the way. The bits of a signaling NaN are recognized here
too, since a `Float` shows every NaN as the same.
-/

namespace SsaAdvisor

/-- The magnitude `m * 2 ^ q` of a finite binary64 number. -/
structure Binary64 where
  m : Nat
  q : Int
  /-- The gap to the next smaller magnitude is half the gap to the next larger one. -/
  narrowBelow : Bool
deriving DecidableEq

namespace Binary64

/-- The magnitude held by the bits of a finite number; the sign bit is ignored. -/
def ofBits (bits : UInt64) : Binary64 :=
  let exponent := ((bits >>> 52) &&& 0x7ff).toNat
  let fraction := (bits &&& 0xfffffffffffff).toNat
  if exponent = 0 then ⟨fraction, -1074, false⟩
  else ⟨0x10000000000000 + fraction, (exponent : Int) - 1075, fraction = 0 && 1 < exponent⟩

/-- The magnitude of a finite number. -/
def ofFloat (x : Float) : Binary64 := ofBits x.toBits

/-- Whether the sign bit is set; it is for negative zero. -/
def isNegative (x : Float) : Bool := x.toBits >>> 63 == 1

/-- The same magnitude with the sign bit of `signed`. -/
def withSignOf (magnitude signed : Float) : Float :=
  Float.ofBits
    ((magnitude.toBits &&& 0x7fffffffffffffff) ||| (signed.toBits &&& 0x8000000000000000))

/-- Not a number. Of a NaN's bits a `Float` keeps none, so there is only one. -/
def nan : Float := 0.0 / 0.0

/-- Whether the bits are those of a signaling NaN: the exponent is all ones, the leading bit of the
fraction is clear, and the rest of the fraction is not zero. -/
def isSignaling (bits : UInt64) : Bool :=
  (bits >>> 51) &&& 0xfff == 0xffe && bits &&& 0x7ffffffffffff != 0

/-- The fields of a signaling NaN, as numbers. -/
theorem isSignaling_iff {bits : UInt64} :
    isSignaling bits = true ↔
      bits.toNat / 0x8000000000000 % 0x1000 = 0xffe ∧ bits.toNat % 0x8000000000000 ≠ 0 := by
  have hHigh : ((bits >>> 51) &&& 0xfff).toNat = bits.toNat / 0x8000000000000 % 0x1000 := by
    rw [UInt64.toNat_and, UInt64.toNat_shiftRight]
    exact (Nat.and_two_pow_sub_one_eq_mod _ 12).trans (by rw [Nat.shiftRight_eq_div_pow]; rfl)
  have hLow : (bits &&& 0x7ffffffffffff).toNat = bits.toNat % 0x8000000000000 := by
    rw [UInt64.toNat_and]
    exact Nat.and_two_pow_sub_one_eq_mod _ 51
  simp [isSignaling, ← UInt64.toNat_inj, hHigh, hLow]

open Float.Model UnpackedFloat in
/-- Read as a `Float`, a signaling NaN is no different from any other NaN. -/
theorem float_ofBits_eq_nan {bits : UInt64} (h : isSignaling bits = true) :
    Float.ofBits bits = nan := by
  obtain ⟨hHigh, hLow⟩ := isSignaling_iff.1 h
  have hExponent : @unpackExponent Format.binary64 bits.toBitVec = -1#11 := by
    apply BitVec.eq_of_toNat_eq
    simp [unpackExponent, Format.binary64, Nat.shiftRight_eq_div_pow]
    omega
  have hFraction : @unpackMantissa Format.binary64 bits.toBitVec ≠ 0#52 := by
    intro hZero
    have := congrArg BitVec.toNat hZero
    simp [unpackMantissa, Format.binary64] at this
    omega
  have hUnpack : UnpackedFloat.unpack Format.binary64 bits.toBitVec = .notANumber := by
    delta UnpackedFloat.unpack
    rw [if_pos hExponent, if_neg hFraction]
  have hNan : nan = .ofModel (pack .notANumber) := by decide +kernel
  rw [hNan, ← hUnpack]
  rfl

/-- Exact remainder of the division of two magnitudes that rounds toward zero. With the smaller of
the two exponents both become integers, and the remainder is below `2 ^ 53`. -/
def mod (a b : Binary64) : Float :=
  let q := min a.q b.q
  -- scaling back is exact: the remainder is a multiple of `2 ^ q` below the divisor
  Float.scaleB (Float.ofNat ((a.m * Nat.pow 2 (a.q - q).toNat) % (b.m * Nat.pow 2 (b.q - q).toNat))) q

/-- Remainder of the division that rounds toward zero, with the sign of the dividend, also where
the remainder is zero. It is undefined (NaN) for an infinite dividend or a zero divisor. -/
def remainder (x y : Float) : Float :=
  if x.isNaN || y.isNaN || x.isInf || y == 0 then nan
  else if y.isInf then x
  else withSignOf (mod (ofFloat x) (ofFloat y)) x

/-- Nearest integral number; a half goes to the even neighbour, and a zero keeps its sign. -/
def roundHalfEven (x : Float) : Float :=
  -- `round` takes a half away from zero; halving first leaves a quarter or three quarters instead
  let nearest := x.round
  if (nearest - x).abs == 0.5 then 2.0 * (x / 2.0).round else nearest

end Binary64
end SsaAdvisor
