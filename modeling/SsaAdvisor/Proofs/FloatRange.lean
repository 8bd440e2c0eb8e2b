import Mathlib.Algebra.Group.Nat.Defs
import SsaAdvisor.Binary64

/-!
# Floats that stay finite

A number is packed as a finite float if its exponent leaves room below infinity. Negation does not
touch the exponent, and an integer up to `2 ^ 53` in magnitude stays far below the bound on its way
to a float. The bounds on rounding are no tighter than that takes.
-/

namespace SsaAdvisor
namespace Binary64

open Float.Model (Format UnpackedFloat totalExponent)
open Float.Model.UnpackedFloat

/-- A finite number with a mantissa of no more than so many bits, and an exponent no larger than the
bound. -/
def Within (bits : Nat) (bound : Int) : UnpackedFloat → Prop
  | .zero _ => True
  | .finite _ m e _ => m < 2 ^ bits ∧ e ≤ bound
  | .infinity _ | .notANumber => False

variable {bits : Nat} {bound : Int} {u : UnpackedFloat}

private theorem isFinite_of_within (h : Within bits bound u) : u.isFinite = true := by
  cases u with
  | infinity _ | notANumber => exact h.elim
  | zero _ | finite _ _ _ _ => rfl

/-! ## Packed numbers -/

private theorem ne_allOnes_iff {field : BitVec 11} : field ≠ -1#11 ↔ field.toNat < 2047 := by
  rw [ne_eq, ← BitVec.toNat_inj]
  have hones : (-1#11).toNat = 2047 := rfl
  have hlt := field.isLt
  omega

private theorem within_unpack {b : BitVec Format.binary64.numBits}
    (hfinite : (unpackExponent b).toNat < 2047) (hlow : -1074 ≤ bound)
    (h : (unpackExponent b).toNat - 1075 ≤ bound) :
    Within 53 bound (unpack Format.binary64 b) := by
  unfold unpack
  rw [if_neg (ne_allOnes_iff.mpr hfinite)]
  by_cases hexponent : unpackExponent b = 0#11
  · rw [if_pos hexponent]
    by_cases hfraction : unpackMantissa b = 0#52
    · rw [dif_pos hfraction]
      exact trivial
    · rw [dif_neg hfraction, hexponent]
      exact ⟨Nat.lt_trans (unpackMantissa b).isLt (by decide), hlow⟩
  · rw [if_neg hexponent]
    exact ⟨(1#1 ++ unpackMantissa b).isLt, h⟩

private theorem within_of_isFinite {b : BitVec Format.binary64.numBits}
    (h : (unpack Format.binary64 b).isFinite = true) :
    Within 53 971 (unpack Format.binary64 b) := by
  have hfinite : unpackExponent b ≠ -1#11 := by
    intro hones
    unfold unpack at h
    rw [if_pos hones] at h
    split at h <;> exact Bool.noConfusion h
  have hlt := ne_allOnes_iff.mp hfinite
  exact within_unpack hlt (by decide) (by omega)

private theorem within_unpack_pack (hlow : -1074 ≤ bound) (hhigh : bound ≤ 971)
    (h : Within bits bound u) :
    Within 53 bound (unpack Format.binary64 (pack Format.binary64 u)) := by
  have hcomponents : ∀ (s : Sign) (field : BitVec 11) (m : BitVec 52),
      field.toNat < 2047 → (field.toNat : Int) - 1075 ≤ bound →
        Within 53 bound (unpack Format.binary64 (packComponents Format.binary64 s field m)) := by
    intro s field m hfinite hle
    refine within_unpack ?_ hlow ?_ <;> rwa [unpackExponent_packComponents]
  cases u with
  | infinity s => exact h.elim
  | notANumber => exact h.elim
  | zero s => exact hcomponents s 0#11 0#52 (by decide) (by rw [BitVec.toNat_zero]; omega)
  | finite s m e hm =>
    have he : e ≤ bound := h.2
    unfold pack
    dsimp only
    have hbias : ((Format.binary64.exponentBias : Nat) : Int) = 1023 := rfl
    have hbits : ((Format.binary64.mantissaBitsWithoutImplicit : Nat) : Int) = 52 := rfl
    rw [hbias, hbits]
    have hfield : (BitVec.ofNat 11 (e + 1023 + 52).toNat).toNat = (e + 1023 + 52).toNat := by
      rw [BitVec.toNat_ofNat, Nat.mod_eq_of_lt]
      omega
    rw [if_neg (by omega)]
    split
    · exact hcomponents _ _ _ (by omega) (by omega)
    · exact hcomponents _ _ _ (by decide) (by rw [BitVec.toNat_zero]; omega)

/-! ## Negation -/

private theorem within_neg (h : Within bits bound u) : Within bits bound u.neg := by
  cases u with
  | infinity _ | notANumber => exact h.elim
  | zero _ => exact trivial
  | finite _ _ _ _ => exact h

/-- The negation of a finite number is finite. -/
theorem isFinite_neg {x : Float} (h : x.isFinite = true) : (-x).isFinite = true :=
  isFinite_of_within
    (within_unpack_pack (by decide) (by decide) (within_neg (within_of_isFinite h)))

/-! ## Rounding -/

private theorem mantissa_shiftRight_le (em : ExtendedMantissa) (n : Nat) :
    (em >>> n).mantissa ≤ em.mantissa := by
  change (n.repeat ExtendedMantissa.shiftRightOne em).mantissa ≤ em.mantissa
  induction n with
  | zero => exact Nat.le_refl em.mantissa
  | succ n ih => exact Nat.le_trans (Nat.div_le_self _ 2) ih

private theorem roundedMantissa_le (em : ExtendedMantissa) :
    em.roundedMantissa ≤ em.mantissa + 1 := by
  obtain ⟨m, roundBit, stickyBit⟩ := em
  change ExtendedMantissa.roundedMantissa ⟨m, roundBit, stickyBit⟩ ≤ m + 1
  unfold ExtendedMantissa.roundedMantissa ExtendedMantissa.accuracy
  split <;> simp only [Accuracy.roundToNearestEven] <;> omega

private theorem shiftToTargetExponent_le {m : Nat} {e : Int} (accuracy : Accuracy)
    (hm : m < 2 ^ bits) (he : e ≤ bound) (hlow : -1074 ≤ bound) :
    (shiftToTargetExponent Format.binary64 m e accuracy).1.mantissa < 2 ^ bits ∧
      (shiftToTargetExponent Format.binary64 m e accuracy).2 ≤ bound + bits := by
  constructor
  · have hstart : (ExtendedMantissa.ofMantissaAndAccuracy m accuracy).mantissa = m := by
      unfold ExtendedMantissa.ofMantissaAndAccuracy
      split <;> rfl
    exact Nat.lt_of_le_of_lt (mantissa_shiftRight_le _ _) (hstart.symm ▸ hm)
  · have hlog : m.log2 ≤ bits := by
      by_cases hzero : m = 0
      · simp [hzero]
      · exact Nat.le_of_lt ((Nat.log2_lt hzero).mpr hm)
    have htarget : Format.binary64.targetExponent (totalExponent m e) =
        max ((m.log2 : Int) + 1 + e - 53) (-1074) := rfl
    change e + (Format.binary64.targetExponent (totalExponent m e) - e).toNat ≤ bound + bits
    omega

/-- Rounding makes room for as many bits as the mantissa has, and for a carry. -/
theorem within_roundWithAccuracy {m : Nat} {e : Int} (s : Sign) (accuracy : Accuracy)
    (hm : m < 2 ^ bits) (he : e ≤ bound) (hlow : -1074 ≤ bound) :
    Within (bits + 1) (bound + (2 * bits + 1))
      (roundWithAccuracy Format.binary64 s m e accuracy) := by
  obtain ⟨hm₁, he₁⟩ := shiftToTargetExponent_le accuracy hm he hlow
  unfold roundWithAccuracy
  generalize shiftToTargetExponent Format.binary64 m e accuracy = shifted at hm₁ he₁
  have hcarry : shifted.1.roundedMantissa < 2 ^ (bits + 1) := by
    have := roundedMantissa_le shifted.1
    rw [Nat.pow_succ]
    omega
  obtain ⟨hm₂, he₂⟩ := shiftToTargetExponent_le .exact hcarry he₁ (by omega)
  dsimp only
  generalize shiftToTargetExponent Format.binary64 _ shifted.2 .exact = final at hm₂ he₂
  by_cases hzero : final.1.mantissa = 0
  · rw [dif_pos hzero]
    exact trivial
  · rw [dif_neg hzero]
    exact ⟨hm₂, by omega⟩

private theorem within_mul {bits' : Nat} {bound' : Int} {v : UnpackedFloat}
    (hu : Within bits bound u) (hv : Within bits' bound' v) (hlow : -1074 ≤ bound + bound') :
    Within (bits + bits' + 1) (bound + bound' + (2 * (bits + bits') + 1))
      (UnpackedFloat.mul Format.binary64 u v) := by
  cases u with
  | infinity _ | notANumber => exact hu.elim
  | zero _ =>
    cases v with
    | infinity _ | notANumber => exact hv.elim
    | zero _ | finite _ _ _ _ => exact trivial
  | finite s m e hm =>
    cases v with
    | infinity _ | notANumber => exact hv.elim
    | zero _ => exact trivial
    | finite s' m' e' hm' =>
      have hmul : m * m' < 2 ^ (bits + bits') := by
        rw [Nat.pow_add]
        exact Nat.mul_lt_mul'' hu.1 hv.1
      have hsum := Int.add_le_add hu.2 hv.2
      have hround := within_roundWithAccuracy (s * s') .exact hmul hsum hlow
      rw [Int.natCast_add] at hround
      exact hround

/-! ## Integers -/

private theorem within_round {n : Nat} (hn : n < 2 ^ 64) (s : Sign) :
    Within 117 233 (UnpackedFloat.round Format.binary64 s n 0) := by
  have htarget : Format.binary64.targetExponent (totalExponent n 0) =
      max ((n.log2 : Int) + 1 + 0 - 53) (-1074) := rfl
  unfold UnpackedFloat.round decreaseExponent
  dsimp only
  generalize hshift : (0 - Format.binary64.targetExponent (totalExponent n 0)).toNat = shift
  have hle : shift ≤ 52 := by omega
  have hm : n <<< shift < 2 ^ 116 := by
    calc n <<< shift = n * 2 ^ shift := Nat.shiftLeft_eq n shift
      _ < 2 ^ 64 * 2 ^ 52 :=
        Nat.mul_lt_mul_of_lt_of_le hn (Nat.pow_le_pow_right (by decide) hle) (by decide)
  have he : (0 : Int) - shift ≤ 0 := by omega
  exact within_roundWithAccuracy s .exact hm he (by decide)

private theorem within_toFloat (n : UInt64) : Within 53 233 n.toFloat.toModel.unpack := by
  have hround : Within 117 233 (UnpackedFloat.ofUInt64 Format.binary64 n) := by
    have hn : ((n.toNat : Int)).toNat < 2 ^ 64 := n.toNat_lt
    unfold UnpackedFloat.ofUInt64 UnpackedFloat.ofNat UnpackedFloat.ofInt UnpackedFloat.normalize
    split
    · next hneg => exact absurd (Int.compare_eq_lt.mp hneg) (by omega)
    · exact trivial
    · exact within_round hn .positive
  exact within_unpack_pack (by decide) (by decide) hround

/-- A natural number up to `2 ^ 53` is a finite float. -/
theorem isFinite_ofNat {n : Nat} (h : n ≤ 2 ^ 53) : (Float.ofNat n).isFinite = true := by
  rcases Nat.lt_or_eq_of_le h with hlt | rfl
  · have hscaled : Float.ofNat n = n.toUInt64.toFloat * Float.ofBits 0x3FF0000000000000 := by
      change Float.ofScientific n false 0 = _
      unfold Float.ofScientific
      rw [dif_pos ⟨hlt, by decide⟩]
      rfl
    have hone : Within 53 (-52) (Float.ofBits 0x3FF0000000000000).toModel.unpack :=
      within_unpack_pack (by decide) (by decide)
        (within_unpack (by decide) (by decide) (by decide))
    rw [hscaled]
    exact isFinite_of_within (within_unpack_pack (by decide) (by decide)
      (within_mul (within_toFloat n.toUInt64) hone (by decide)))
  · decide +kernel

/-- An integer up to `2 ^ 53` in magnitude is a finite float. -/
theorem isFinite_ofInt {n : Int} (h : n.natAbs ≤ 2 ^ 53) : (Float.ofInt n).isFinite = true := by
  cases n with
  | ofNat n => exact isFinite_ofNat h
  | negSucc n => exact isFinite_neg (isFinite_ofNat h)

end Binary64
end SsaAdvisor
