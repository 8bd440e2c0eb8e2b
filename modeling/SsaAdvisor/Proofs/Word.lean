import Mathlib.Algebra.Order.Ring.Int
import Mathlib.Data.Int.Bitwise
import SsaAdvisor.Constant.Arithmetic

/-!
# Words and the integers that they hold

Checked operations on words are compared here with operations on integers without bound. A bitwise
operation never leaves the range, since the bits of a word's integer are those of the word and,
behind them, copies of its sign. Quotient, remainder and modulus are defined together: for every
divisor but zero, unless the quotient exceeds every word.
-/

namespace SsaAdvisor

/-- The integers that a word holds. -/
def FitsWord (n : Int) : Prop := -2 ^ 63 ≤ n ∧ n < 2 ^ 63

instance (n : Int) : Decidable (FitsWord n) := inferInstanceAs (Decidable (_ ∧ _))

/-- A word holds an integer in the range. -/
theorem fitsWord_toInt (v : Int64) : FitsWord v.toInt := ⟨v.le_toInt, v.toInt_lt⟩

/-- An integer has no word exactly if it is out of range. -/
theorem word?_eq_none_iff_not_fitsWord {n : Int} : word? n = none ↔ ¬ FitsWord n := by
  have hmin : Int64.minValue.toInt = -2 ^ 63 := by decide
  have hmax : Int64.maxValue.toInt = 2 ^ 63 - 1 := by decide
  rw [word?_eq_none_iff, hmin, hmax, FitsWord]
  omega

/-- An integer has a word exactly if it is in range. -/
theorem exists_word?_iff {n : Int} : (∃ v, word? n = some v) ↔ FitsWord n := by
  rw [← Option.ne_none_iff_exists', ne_eq, word?_eq_none_iff_not_fitsWord, not_not]

/-! ## Bits -/

private theorem eq_of_testBit_eq {m n : Int} (h : ∀ i, m.testBit i = n.testBit i) : m = n := by
  -- far enough out a natural number has clear bits and a negative one set bits
  have hapart : ∀ m n : Nat, ∃ i, (m : Int).testBit i ≠ (Int.negSucc n).testBit i := by
    intro m n
    have hm : m.testBit (m + n) = false :=
      Nat.testBit_eq_false_of_lt ((Nat.le_add_right m n).trans_lt Nat.lt_two_pow_self)
    have hn : n.testBit (m + n) = false :=
      Nat.testBit_eq_false_of_lt ((Nat.le_add_left n m).trans_lt Nat.lt_two_pow_self)
    exact ⟨m + n, by simp [Int.testBit, hm, hn]⟩
  match m, n, h with
  | .ofNat m, .ofNat n, h => exact congrArg Int.ofNat (Nat.eq_of_testBit_eq h)
  | .negSucc m, .negSucc n, h =>
    refine congrArg Int.negSucc (Nat.eq_of_testBit_eq fun i ↦ ?_)
    exact Bool.not_inj (h i)
  | .ofNat m, .negSucc n, h =>
    obtain ⟨i, hi⟩ := hapart m n
    exact absurd (h i) hi
  | .negSucc m, .ofNat n, h =>
    obtain ⟨i, hi⟩ := hapart n m
    exact absurd (h i).symm hi

private theorem testBit_toInt {w : Nat} (x : BitVec (w + 1)) (i : Nat) :
    x.toInt.testBit i = x.getLsbD (min i w) := by
  have hbeyond : w < i → x.getLsbD (min i w) = x.msb := by
    intro hi
    rw [Nat.min_eq_right hi.le, BitVec.msb_eq_getLsbD_last, Nat.add_sub_cancel]
  cases hmsb : x.msb with
  | false =>
    rw [BitVec.toInt_eq_msb_cond, if_neg (by simp [hmsb])]
    change x.toNat.testBit i = _
    rw [BitVec.testBit_toNat]
    rcases Nat.lt_or_ge w i with hi | hi
    · rw [hbeyond hi, hmsb, BitVec.getLsbD_of_ge x i hi]
    · rw [Nat.min_eq_left hi]
  | true =>
    have hlt : x.toNat < 2 ^ (w + 1) := x.isLt
    have hnegative : x.toInt = Int.negSucc (2 ^ (w + 1) - (x.toNat + 1)) := by
      rw [BitVec.toInt_eq_msb_cond, if_pos hmsb, Int.negSucc_eq]
      omega
    rw [hnegative, Int.testBit, Nat.testBit_two_pow_sub_succ hlt, BitVec.testBit_toNat]
    rcases Nat.lt_or_ge w i with hi | hi
    · rw [hbeyond hi, hmsb]
      simp [Nat.not_lt.mpr hi]
    · rw [Nat.min_eq_left hi]
      simp [Nat.lt_succ_of_le hi]

private theorem testBit_word (v : Int64) (i : Nat) :
    v.toInt.testBit i = v.toBitVec.getLsbD (min i 63) := testBit_toInt v.toBitVec i

/-- Conjunction bit by bit is that of the integers. -/
theorem toInt_and (a b : Int64) : (a &&& b).toInt = a.toInt.land b.toInt := by
  refine eq_of_testBit_eq fun i ↦ ?_
  rw [Int.testBit_land, testBit_word, testBit_word, testBit_word, Int64.toBitVec_and,
    BitVec.getLsbD_and]

/-- Disjunction bit by bit is that of the integers. -/
theorem toInt_or (a b : Int64) : (a ||| b).toInt = a.toInt.lor b.toInt := by
  refine eq_of_testBit_eq fun i ↦ ?_
  rw [Int.testBit_lor, testBit_word, testBit_word, testBit_word, Int64.toBitVec_or,
    BitVec.getLsbD_or]

/-- Exclusive disjunction bit by bit is that of the integers. -/
theorem toInt_xor (a b : Int64) : (a ^^^ b).toInt = a.toInt.xor b.toInt := by
  refine eq_of_testBit_eq fun i ↦ ?_
  rw [Int.testBit_lxor, testBit_word, testBit_word, testBit_word, Int64.toBitVec_xor,
    BitVec.getLsbD_xor]

/-- Complement bit by bit is that of the integer. -/
theorem toInt_not (a : Int64) : (~~~a).toInt = a.toInt.lnot := by
  refine eq_of_testBit_eq fun i ↦ ?_
  have hi : min i 63 < 64 := by omega
  rw [Int.testBit_lnot, testBit_word, testBit_word, Int64.toBitVec_not, BitVec.getLsbD_not,
    decide_eq_true hi, Bool.true_and]

/-! ## Division -/

/-- The divisions of words without a quotient among them: those by zero, and the least word divided
by minus one. -/
def Indivisible (a b : Int) : Prop := b = 0 ∨ a = -2 ^ 63 ∧ b = -1

private theorem fitsWord_tdiv {a b : Int} (ha : FitsWord a) (hb : b ≠ 0) :
    FitsWord (a.tdiv b) ↔ ¬ Indivisible a b := by
  have hle : (a.tdiv b).natAbs ≤ a.natAbs := Int.natAbs_tdiv_le_natAbs a b
  by_cases hone : b = 1 ∨ b = -1
  · rcases hone with rfl | rfl
    · rw [Int.tdiv_one]
      exact iff_of_true ha (by simp [Indivisible])
    · rw [Int.tdiv_neg, Int.tdiv_one]
      unfold FitsWord Indivisible at *
      omega
  · -- a divisor of magnitude two or more halves the magnitude at least
    have hhalf : (a.tdiv b).natAbs ≤ a.natAbs / 2 := by
      rw [Int.natAbs_tdiv]
      exact Nat.div_le_div_left (by omega) (by decide)
    refine iff_of_true ?_ ?_
    · unfold FitsWord at *
      omega
    · unfold Indivisible
      omega

private theorem fmod_between (a : Int) {b : Int} (hb : b ≠ 0) :
    0 ≤ a.fmod b ∧ a.fmod b < b ∨ b < a.fmod b ∧ a.fmod b ≤ 0 := by
  rcases Int.lt_or_gt_of_ne hb with hneg | hpos
  · have hlow := Int.fmod_nonneg_of_pos (-a) (Int.neg_pos_of_neg hneg)
    have hhigh := Int.fmod_lt_of_pos (-a) (Int.neg_pos_of_neg hneg)
    rw [Int.neg_fmod_neg] at hlow hhigh
    omega
  · exact .inl ⟨Int.fmod_nonneg_of_pos a hpos, Int.fmod_lt_of_pos a hpos⟩

/-- A remainder with the sign of the dividend is nearer to zero than the divisor. -/
theorem natAbs_tmod_lt (a : Int) {b : Int} (hb : b ≠ 0) : (a.tmod b).natAbs < b.natAbs := by
  rw [Int.natAbs_tmod]
  exact Nat.mod_lt _ (Int.natAbs_pos.mpr hb)

/-- A remainder with the sign of the dividend has that sign, unless it is zero. -/
theorem sign_tmod_of_ne_zero {a b : Int} (h : a.tmod b ≠ 0) : (a.tmod b).sign = a.sign := by
  rw [Int.sign_tmod, if_neg fun hdvd ↦ h (Int.tmod_eq_zero_of_dvd hdvd)]

/-- A remainder with the sign of the divisor is nearer to zero than the divisor. -/
theorem natAbs_fmod_lt (a : Int) {b : Int} (hb : b ≠ 0) : (a.fmod b).natAbs < b.natAbs := by
  have := fmod_between a hb
  omega

/-- A remainder with the sign of the divisor has that sign, unless it is zero. -/
theorem sign_fmod_of_ne_zero {a b : Int} (hb : b ≠ 0) (h : a.fmod b ≠ 0) :
    (a.fmod b).sign = b.sign := by
  rcases fmod_between a hb with ⟨hlow, hhigh⟩ | ⟨hlow, hhigh⟩
  · rw [Int.sign_eq_one_of_pos (by omega), Int.sign_eq_one_of_pos (by omega)]
  · rw [Int.sign_eq_neg_one_of_neg (by omega), Int.sign_eq_neg_one_of_neg (by omega)]

private theorem fitsWord_of_natAbs_lt {n b : Int} (hb : FitsWord b) (h : n.natAbs < b.natAbs) :
    FitsWord n := by
  unfold FitsWord at *
  omega

/-- The floored remainder is the truncated one, plus the divisor where the two differ in sign. -/
theorem fmod_eq_tmod_add (a : Int) {b : Int} (hb : b ≠ 0) :
    a.fmod b =
      if a.tmod b ≠ 0 ∧ decide (a.tmod b < 0) ≠ decide (b < 0) then a.tmod b + b
      else a.tmod b := by
  have hdvd : b ∣ a ↔ a % b = 0 := Int.dvd_iff_emod_eq_zero
  have hlow := Int.emod_nonneg a hb
  have hhigh := Int.emod_lt a hb
  rw [Int.fmod_eq_emod, Int.tmod_eq_emod]
  simp only [hdvd, ne_eq, decide_eq_decide]
  split_ifs <;> omega

/-- The modulus of words is the checked word of the floored remainder, where there is a quotient. -/
theorem modulus?_eq (a b : Int64) :
    modulus? a b = (quotient? a b).bind fun _ ↦ word? (a.toInt.fmod b.toInt) := by
  unfold modulus? remainder?
  cases hquotient : quotient? a b with
  | none => rfl
  | some q =>
    have hb : b.toInt ≠ 0 := by
      intro hzero
      rw [quotient?, if_pos hzero] at hquotient
      cases hquotient
    obtain ⟨r, hr⟩ := exists_word?_iff.mpr
      (fitsWord_of_natAbs_lt (fitsWord_toInt b) (natAbs_tmod_lt a.toInt hb))
    have htoInt := toInt_of_word? hr
    have hword : word? r.toInt = some r := by rw [htoInt, hr]
    simp only [Option.bind_some, Option.bind_eq_bind, fmod_eq_tmod_add _ hb, ← htoInt, hword]
    split
    · rfl
    · rw [hword]

/-- Quotient, remainder and modulus of words are missing together, or are those of integers. -/
theorem division_cases (a b : Int64) :
    Indivisible a.toInt b.toInt ∧ quotient? a b = none ∧ remainder? a b = none ∧
        modulus? a b = none ∨
      ¬ Indivisible a.toInt b.toInt ∧ ∃ q r m : Int64,
        (quotient? a b = some q ∧ q.toInt = a.toInt.tdiv b.toInt) ∧
          (remainder? a b = some r ∧ r.toInt = a.toInt.tmod b.toInt) ∧
          (modulus? a b = some m ∧ m.toInt = a.toInt.fmod b.toInt) := by
  by_cases hb : b.toInt = 0
  · have hquotient : quotient? a b = none := if_pos hb
    exact .inl ⟨.inl hb, hquotient, by simp [remainder?, hquotient],
      by simp [modulus?_eq, hquotient]⟩
  have hquotient : quotient? a b = word? (a.toInt.tdiv b.toInt) := if_neg hb
  have hfits := fitsWord_tdiv (fitsWord_toInt a) hb
  by_cases hdivides : Indivisible a.toInt b.toInt
  · rw [word?_eq_none_iff_not_fitsWord.mpr fun h ↦ hfits.mp h hdivides] at hquotient
    exact .inl ⟨hdivides, hquotient, by simp [remainder?, hquotient],
      by simp [modulus?_eq, hquotient]⟩
  · obtain ⟨q, hq⟩ := exists_word?_iff.mpr (hfits.mpr hdivides)
    obtain ⟨r, hr⟩ := exists_word?_iff.mpr
      (fitsWord_of_natAbs_lt (fitsWord_toInt b) (natAbs_tmod_lt a.toInt hb))
    obtain ⟨m, hm⟩ := exists_word?_iff.mpr
      (fitsWord_of_natAbs_lt (fitsWord_toInt b) (natAbs_fmod_lt a.toInt hb))
    rw [hq] at hquotient
    exact .inr ⟨hdivides, q, r, m, ⟨hquotient, toInt_of_word? hq⟩,
      ⟨by simp [remainder?, hquotient, hr], toInt_of_word? hr⟩,
      ⟨by simp [modulus?_eq, hquotient, hm], toInt_of_word? hm⟩⟩

/-! ## Powers -/

private theorem pow_add_two_mul {a : Int} (ha : a.natAbs ≤ 1) (m j : Nat) :
    a ^ (m + 1 + 2 * j) = a ^ (m + 1) := by
  have hcube : a ^ 3 = a := by
    obtain rfl | rfl | rfl : a = -1 ∨ a = 0 ∨ a = 1 := by omega
    all_goals rfl
  induction j with
  | zero => rfl
  | succ j ih =>
    calc a ^ (m + 1 + 2 * (j + 1)) = a ^ (m + 2 * j) * a ^ 3 := by
          rw [← pow_add]
          congr 1
          omega
      _ = a ^ (m + 1 + 2 * j) := by
          rw [hcube, ← pow_succ]
          congr 1
          omega
      _ = a ^ (m + 1) := ih

/-- A power with an exponent of 64 or more is out of range, but for minus one, zero and one. -/
theorem not_fitsWord_pow {a : Int} (ha : 1 < a.natAbs) {n : Nat} (hn : 64 ≤ n) :
    ¬ FitsWord (a ^ n) := by
  have hlarge : 2 ^ 64 ≤ (a ^ n).natAbs := by
    rw [Int.natAbs_pow]
    exact (Nat.pow_le_pow_right (by decide) hn).trans (Nat.pow_le_pow_left ha n)
  unfold FitsWord
  omega

/-- Where the exponent is in range, the power is the checked word of the integer power. -/
theorem power?_eq (a b : Int64) :
    power? a b =
      if 0 ≤ b.toInt ∧ b.toInt < 2 ^ 32 then word? (a.toInt ^ b.toInt.toNat) else none := by
  unfold power?
  refine if_congr Iff.rfl ?_ rfl
  generalize b.toInt.toNat = n
  change (if n < 64 then word? (a.toInt ^ n)
    else if a.toInt.natAbs ≤ 1 then word? (a.toInt ^ (2 + n % 2)) else none) = _
  split
  · rfl
  · next hn =>
    split
    · next ha =>
      have hsplit : n = (n % 2 + 1) + 1 + 2 * ((n - 2) / 2) := by omega
      rw [hsplit, pow_add_two_mul ha, ← hsplit]
      congr 2
      omega
    · next ha =>
      exact (word?_eq_none_iff_not_fitsWord.mpr
        (not_fitsWord_pow (Nat.lt_of_not_le ha) (Nat.le_of_not_lt hn))).symm

end SsaAdvisor
