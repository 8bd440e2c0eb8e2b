import Mathlib.Algebra.BigOperators.Group.List.Basic
import SsaAdvisor.Constant.Operator
import SsaAdvisor.Proofs.CheckedFold
import SsaAdvisor.Proofs.Word

/-!
# Folding of integers is exact

The result of every operator over the integers without bound is said here apart from the checked
operations on words. Main statement: on words every operator but the division of floats and the
float functions gives that result, and gives none only for one of the listed reasons. Quotient,
remainder and modulus are defined together and obey the laws of division.
-/

namespace SsaAdvisor
namespace Operator

/-- The operators whose result is a float also on integers. -/
def isFloatFunction : Operator → Bool
  | .div | .sqrt | .exp | .log | .sin | .cos => true
  | _ => false

/-- Whether the operator takes so many arguments. -/
def takes : Operator → Nat → Bool
  | .add, n | .mul, n => n != 0
  | .sub, n => n == 1 || n == 2
  | .neg, n | .not, n | .abs, n | .sqrt, n | .exp, n | .log, n | .sin, n | .cos, n
  | .floor, n | .ceil, n | .round, n => n == 1
  | _, n => n == 2

/-- The integer that the operator gives for integers, where there is one. Bitwise operations are
those of two's complement. -/
def onIntegers? : Operator → List Int → Option Int
  | .add, a :: rest => some (a :: rest).sum
  | .mul, a :: rest => some (a :: rest).prod
  | .sub, [a] | .neg, [a] => some (-a)
  | .sub, [a, b] => some (a - b)
  | .intDiv, [a, b] => if b = 0 then none else some (a.tdiv b)
  | .rem, [a, b] => if b = 0 then none else some (a.tmod b)
  | .mod, [a, b] => if b = 0 then none else some (a.fmod b)
  | .pow, [a, b] => if 0 ≤ b then some (a ^ b.toNat) else none
  | .not, [a] => some a.lnot
  | .and, [a, b] => some (a.land b)
  | .or, [a, b] => some (a.lor b)
  | .xor, [a, b] => some (a.xor b)
  | .abs, [a] => some |a|
  | .min, [a, b] => some (Min.min a b)
  | .max, [a, b] => some (Max.max a b)
  | .floor, [a] | .ceil, [a] | .round, [a] => some a
  | _, _ => none

/-- The truth value that a comparison gives for two integers. -/
def comparison? : Operator → List Int → Option Bool
  | .eq, [a, b] => some (decide (a = b))
  | .ne, [a, b] => some (decide (a ≠ b))
  | .lt, [a, b] => some (decide (a < b))
  | .le, [a, b] => some (decide (a ≤ b))
  | .gt, [a, b] => some (decide (a > b))
  | .ge, [a, b] => some (decide (a ≥ b))
  | _, _ => none

/-- Why an operator has no result on words that hold the integers. -/
inductive Undefined : Operator → List Int → Prop
  | arity {op : Operator} {args : List Int} : op.takes args.length = false → Undefined op args
  | division {op : Operator} {a b : Int} : op = .intDiv ∨ op = .rem ∨ op = .mod →
    Indivisible a b → Undefined op [a, b]
  | exponent {a b : Int} : ¬ (0 ≤ b ∧ b < 2 ^ 32) → Undefined .pow [a, b]
  | overflow {op : Operator} {args : List Int} {n : Int} : op.onIntegers? args = some n →
    ¬ FitsWord n → Undefined op args
  | front {op : Operator} {args front : List Int} {n : Int} : op = .add ∨ op = .mul →
    front <+: args → op.onIntegers? front = some n → ¬ FitsWord n → Undefined op args

/-- What the outcome of an operator on integers may be. -/
inductive Accounts (op : Operator) (args : List Int) : Option Constant → Prop
  | int {v : Int64} : op.onIntegers? args = some v.toInt → Accounts op args (some (.int v))
  | bool {holds : Bool} : op.comparison? args = some holds → Accounts op args (some (.bool holds))
  | undefined : op.Undefined args → Accounts op args none

variable {op : Operator}

/-- An operator has no result on a wrong number of arguments. -/
theorem evaluate?_of_arity {args : List Constant} (h : op.takes args.length = false) :
    op.evaluate? args = none := by
  match args with
  | [] => cases op <;> rfl
  | [_] => cases op <;> first | rfl | exact Bool.noConfusion h
  | [_, _] => cases op <;> first | rfl | exact Bool.noConfusion h
  | _ :: _ :: _ :: _ => cases op <;> first | rfl | exact Bool.noConfusion h

private theorem accounts_word? {args : List Int} {n : Int} (h : op.onIntegers? args = some n) :
    op.Accounts args ((word? n).map .int) := by
  cases hn : word? n with
  | none => exact .undefined (.overflow h (word?_eq_none_iff_not_fitsWord.mp hn))
  | some v => exact .int (h.trans (congrArg some (toInt_of_word? hn).symm))

/-! ## Sums and products -/

private theorem chain?_int (exact : Int → Int → Int) (rounded : Float → Float → Float) (a : Int64)
    (rest : List Int64) :
    chain? (Constant.arithmetic? exact rounded) ((a :: rest).map Constant.int) =
      (rest.foldlM (fun acc b ↦ word? (exact acc.toInt b.toInt)) a).map .int := by
  change (rest.map Constant.int).foldlM (Constant.arithmetic? exact rounded) (.int a) = _
  induction rest generalizing a with
  | nil => rfl
  | cons b rest ih =>
    rw [List.map_cons, List.foldlM_cons, List.foldlM_cons]
    change ((word? (exact a.toInt b.toInt)).map Constant.int).bind _ = _
    cases word? (exact a.toInt b.toInt) with
    | none => rfl
    | some next => exact ih next

private theorem onIntegers?_add (a : Int) (rest : List Int) :
    onIntegers? .add (a :: rest) = some (rest.foldl (· + ·) a) := by
  rw [onIntegers?, List.sum_eq_foldl, List.foldl_cons, zero_add]

private theorem onIntegers?_mul (a : Int) (rest : List Int) :
    onIntegers? .mul (a :: rest) = some (rest.foldl (· * ·) a) := by
  rw [onIntegers?, List.prod_eq_foldl, List.foldl_cons, one_mul]

section Chain

variable {exact : Int → Int → Int}

private theorem foldlM_word?_eq_none_iff (a : Int64) (rest : List Int64) :
    rest.foldlM (fun acc b ↦ word? (exact acc.toInt b.toInt)) a = none ↔
      ∃ front, front <+: rest ∧ ¬ FitsWord ((front.map Int64.toInt).foldl exact a.toInt) := by
  have hsome := isSome_foldlM_iff (fun n (b : Int64) ↦ exact n b.toInt)
    (fun _ _ ↦ toInt_of_word?) rest a
  simp only [Option.isSome_iff_exists, exists_word?_iff] at hsome
  rw [← not_iff_not, ← ne_eq, Option.ne_none_iff_exists', hsome]
  simp only [not_exists, not_and, not_not, List.foldl_map]
  refine forall_congr' fun front ↦ imp_congr_right fun _ ↦ ?_
  by_cases hnil : front = []
  · simp [hnil, fitsWord_toInt]
  · simp [hnil]

/-- The fold over words accounts for the combined integers. -/
theorem accounts_chain? (hop : op = .add ∨ op = .mul)
    (hexact : ∀ a rest, op.onIntegers? (a :: rest) = some (rest.foldl exact a)) (a : Int64)
    (rest : List Int64) :
    op.Accounts ((a :: rest).map Int64.toInt)
      ((rest.foldlM (fun acc b ↦ word? (exact acc.toInt b.toInt)) a).map .int) := by
  rw [List.map_cons]
  cases hfold : rest.foldlM (fun acc b ↦ word? (exact acc.toInt b.toInt)) a with
  | none =>
    obtain ⟨front, hfront, hn⟩ := (foldlM_word?_eq_none_iff a rest).mp hfold
    exact .undefined (.front hop (List.cons_prefix_cons.mpr ⟨rfl, hfront.map Int64.toInt⟩)
      (hexact _ _) hn)
  | some total =>
    refine .int ?_
    rw [hexact, List.foldl_map]
    exact congrArg some (value_of_foldlM (fun n (b : Int64) ↦ exact n b.toInt)
      (fun _ _ ↦ toInt_of_word?) hfold).symm

end Chain

/-! ## Operators with one or two arguments -/

private theorem accounts_one (hfloat : op.isFloatFunction = false) (hop : ¬ (op = .add ∨ op = .mul))
    (htakes : op.takes 1 = true) (a : Int64) :
    op.Accounts [a.toInt] (op.evaluate? [.int a]) := by
  cases op with
  | add => exact absurd (.inl rfl) hop
  | mul => exact absurd (.inr rfl) hop
  | sub | neg => exact accounts_word? rfl
  | abs => exact accounts_word? (congrArg some (Int.abs_eq_natAbs a.toInt))
  | not => exact .int (congrArg some (toInt_not a).symm)
  | floor | ceil | round => exact .int rfl
  | _ => first | exact Bool.noConfusion htakes | exact Bool.noConfusion hfloat

private theorem evaluate?_division (hop : op = .intDiv ∨ op = .rem ∨ op = .mod) (a b : Int64) :
    Indivisible a.toInt b.toInt ∧ op.evaluate? [.int a, .int b] = none ∨
      ¬ Indivisible a.toInt b.toInt ∧ ∃ v : Int64, op.evaluate? [.int a, .int b] = some (.int v) ∧
        op.onIntegers? [a.toInt, b.toInt] = some v.toInt := by
  rcases division_cases a b with ⟨h, hq, hr, hm⟩ | ⟨h, q, r, m, ⟨hq, hqv⟩, ⟨hr, hrv⟩, ⟨hm, hmv⟩⟩
  · refine .inl ⟨h, ?_⟩
    rcases hop with rfl | rfl | rfl
    · exact congrArg (Option.map Constant.int) hq
    · exact congrArg (Option.map Constant.int) hr
    · exact congrArg (Option.map Constant.int) hm
  · have hb : b.toInt ≠ 0 := fun hb ↦ h (.inl hb)
    refine .inr ⟨h, ?_⟩
    rcases hop with rfl | rfl | rfl
    · exact ⟨q, congrArg (Option.map Constant.int) hq, by rw [onIntegers?, if_neg hb, hqv]⟩
    · exact ⟨r, congrArg (Option.map Constant.int) hr, by rw [onIntegers?, if_neg hb, hrv]⟩
    · exact ⟨m, congrArg (Option.map Constant.int) hm, by rw [onIntegers?, if_neg hb, hmv]⟩

private theorem evaluate?_of_indivisible (hop : op = .intDiv ∨ op = .rem ∨ op = .mod) {a b : Int64}
    (h : Indivisible a.toInt b.toInt) : op.evaluate? [.int a, .int b] = none := by
  rcases evaluate?_division hop a b with ⟨-, hnone⟩ | ⟨hdivides, -⟩
  · exact hnone
  · exact absurd h hdivides

private theorem exists_evaluate?_of_divisible (hop : op = .intDiv ∨ op = .rem ∨ op = .mod)
    {a b : Int64} (h : ¬ Indivisible a.toInt b.toInt) :
    ∃ v : Int64, op.evaluate? [.int a, .int b] = some (.int v) ∧
      op.onIntegers? [a.toInt, b.toInt] = some v.toInt := by
  rcases evaluate?_division hop a b with ⟨hindivisible, -⟩ | ⟨-, hv⟩
  · exact absurd hindivisible h
  · exact hv

private theorem accounts_division (hop : op = .intDiv ∨ op = .rem ∨ op = .mod) (a b : Int64) :
    op.Accounts [a.toInt, b.toInt] (op.evaluate? [.int a, .int b]) := by
  rcases evaluate?_division hop a b with ⟨h, hnone⟩ | ⟨-, v, hv, hexact⟩
  · rw [hnone]
    exact .undefined (.division hop h)
  · rw [hv]
    exact .int hexact

private theorem accounts_pow (a b : Int64) :
    Accounts .pow [a.toInt, b.toInt] (evaluate? .pow [.int a, .int b]) := by
  change Accounts .pow _ ((power? a b).map .int)
  rw [power?_eq]
  split
  · next hb => exact accounts_word? (if_pos hb.1)
  · next hb => exact .undefined (.exponent hb)

private theorem equal?_int (a b : Int64) :
    Constant.equal? (.int a) (.int b) = some (decide (a.toInt = b.toInt)) := by
  refine congrArg some ?_
  rw [Bool.beq_eq_decide_eq]
  exact decide_eq_decide.mpr Int64.toInt_inj.symm

private theorem lessEqual?_int (a b : Int64) :
    Constant.lessEqual? (.int a) (.int b) = some (decide (a.toInt ≤ b.toInt)) := by
  rw [Constant.lessEqual?, equal?_int]
  refine congrArg some ?_
  rw [← Bool.decide_or]
  exact decide_eq_decide.mpr Int.le_iff_lt_or_eq.symm

private theorem accounts_two (hfloat : op.isFloatFunction = false) (hop : ¬ (op = .add ∨ op = .mul))
    (htakes : op.takes 2 = true) (a b : Int64) :
    op.Accounts [a.toInt, b.toInt] (op.evaluate? [.int a, .int b]) := by
  cases op with
  | add => exact absurd (.inl rfl) hop
  | mul => exact absurd (.inr rfl) hop
  | sub => exact accounts_word? rfl
  | intDiv => exact accounts_division (.inl rfl) a b
  | rem => exact accounts_division (.inr (.inl rfl)) a b
  | mod => exact accounts_division (.inr (.inr rfl)) a b
  | pow => exact accounts_pow a b
  | eq =>
    change Accounts .eq _ ((Constant.equal? (.int a) (.int b)).map .bool)
    rw [equal?_int]
    exact .bool rfl
  | ne =>
    change Accounts .ne _ ((Constant.equal? (.int a) (.int b)).map fun same ↦ .bool !same)
    rw [equal?_int]
    exact .bool (congrArg some (decide_not ..))
  | lt | gt => exact .bool rfl
  | le =>
    change Accounts .le _ ((Constant.lessEqual? (.int a) (.int b)).map .bool)
    rw [lessEqual?_int]
    exact .bool rfl
  | ge =>
    change Accounts .ge _ ((Constant.lessEqual? (.int b) (.int a)).map .bool)
    rw [lessEqual?_int]
    exact .bool rfl
  | and => exact .int (congrArg some (toInt_and a b).symm)
  | or => exact .int (congrArg some (toInt_or a b).symm)
  | xor => exact .int (congrArg some (toInt_xor a b).symm)
  | min =>
    change Accounts .min _ (Constant.min? (.int a) (.int b))
    rw [Constant.min?, lessEqual?_int]
    by_cases h : a.toInt ≤ b.toInt
    · rw [decide_eq_true h]
      exact .int (congrArg some (min_eq_left h))
    · rw [decide_eq_false h]
      exact .int (congrArg some (min_eq_right (Int.le_of_not_le h)))
  | max =>
    change Accounts .max _ (Constant.max? (.int a) (.int b))
    rw [Constant.max?, Constant.less?]
    by_cases h : a.toInt < b.toInt
    · rw [decide_eq_true h]
      exact .int (congrArg some (max_eq_right h.le))
    · rw [decide_eq_false h]
      exact .int (congrArg some (max_eq_left (Int.not_lt.mp h)))
  | _ => first | exact Bool.noConfusion htakes | exact Bool.noConfusion hfloat

/-! ## Any number of arguments -/

private theorem evaluate?_chain (hop : op = .add ∨ op = .mul) :
    ∃ exact : Int → Int → Int,
      (∀ a rest, op.onIntegers? (a :: rest) = some (rest.foldl exact a)) ∧
        ∀ (a : Int64) (rest : List Int64), op.evaluate? ((a :: rest).map .int) =
          (rest.foldlM (fun acc b ↦ word? (exact acc.toInt b.toInt)) a).map .int := by
  rcases hop with rfl | rfl
  · exact ⟨(· + ·), onIntegers?_add, chain?_int _ _⟩
  · exact ⟨(· * ·), onIntegers?_mul, chain?_int _ _⟩

/-- The outcome of an operator on words is accounted for by the integers that they hold. -/
theorem accounts_evaluate? (hfloat : op.isFloatFunction = false) (args : List Int64) :
    op.Accounts (args.map Int64.toInt) (op.evaluate? (args.map .int)) := by
  cases htakes : op.takes args.length with
  | false =>
    rw [evaluate?_of_arity (by rwa [List.length_map])]
    exact .undefined (.arity (by rwa [List.length_map]))
  | true =>
    by_cases hop : op = .add ∨ op = .mul
    · cases args with
      | nil => rcases hop with rfl | rfl <;> exact Bool.noConfusion htakes
      | cons a rest =>
        obtain ⟨exact, hexact, heval⟩ := evaluate?_chain hop
        rw [heval]
        exact accounts_chain? hop hexact a rest
    · match args with
      | [] => cases op <;> exact Bool.noConfusion htakes
      | [a] => exact accounts_one hfloat hop htakes a
      | [a, b] => exact accounts_two hfloat hop htakes a b
      | _ :: _ :: _ :: _ =>
        cases op <;> first | exact Bool.noConfusion htakes | exact absurd (by decide) hop

/-! ## Undefined results -/

private theorem comparison?_eq_none {args : List Int} {n : Int} (h : op.onIntegers? args = some n) :
    op.comparison? args = none := by
  cases op with
  | eq | ne | lt | le | gt | ge => cases h
  | _ => rfl

private theorem evaluate?_of_front (hop : op = .add ∨ op = .mul) {args : List Int64}
    {front : List Int}
    {n : Int} (hfront : front <+: args.map Int64.toInt) (hn : op.onIntegers? front = some n)
    (hfits : ¬ FitsWord n) : op.evaluate? (args.map .int) = none := by
  obtain ⟨exact, hexact, heval⟩ := evaluate?_chain hop
  obtain ⟨words, ⟨tail, rfl⟩, rfl⟩ := List.prefix_map_iff.mp hfront
  cases words with
  | nil => rcases hop with rfl | rfl <;> cases hn
  | cons a front =>
    rw [List.map_cons, hexact, Option.some.injEq] at hn
    rw [List.cons_append, heval, Option.map_eq_none_iff, foldlM_word?_eq_none_iff]
    exact ⟨front, List.prefix_append front tail, hn ▸ hfits⟩

private theorem exists_pair {args : List Int64} {m n : Int} (h : args.map Int64.toInt = [m, n]) :
    ∃ a b : Int64, args = [a, b] ∧ m = a.toInt ∧ n = b.toInt := by
  match args, h with
  | [a, b], h =>
    obtain ⟨hm, hn⟩ := List.cons.inj h
    exact ⟨a, b, rfl, hm.symm, (List.cons.inj hn).1.symm⟩

/-- An operator has no result where it is said to be undefined. -/
theorem evaluate?_of_undefined (hfloat : op.isFloatFunction = false) {args : List Int64}
    (h : op.Undefined (args.map Int64.toInt)) : op.evaluate? (args.map .int) = none := by
  generalize hints : args.map Int64.toInt = ints at h
  cases h with
  | arity h => exact evaluate?_of_arity (by rwa [List.length_map, ← args.length_map, hints])
  | division hop h =>
    obtain ⟨a, b, rfl, rfl, rfl⟩ := exists_pair hints
    exact evaluate?_of_indivisible hop h
  | exponent hb =>
    obtain ⟨a, b, rfl, rfl, rfl⟩ := exists_pair hints
    change (power? a b).map Constant.int = none
    rw [power?_eq, if_neg hb, Option.map_none]
  | overflow hn hfits =>
    subst hints
    have haccounts := accounts_evaluate? hfloat args
    generalize op.evaluate? (args.map .int) = outcome at haccounts
    cases haccounts with
    | int hv =>
      cases hn.symm.trans hv
      exact absurd (fitsWord_toInt _) hfits
    | bool hholds => cases (comparison?_eq_none hn).symm.trans hholds
    | undefined _ => rfl
  | front hop hfront hn hfits =>
    subst hints
    exact evaluate?_of_front hop hfront hn hfits

/-- On integers an operator other than the float functions gives the exact result, a comparison its
truth value, and none is given exactly for a wrong number of arguments, an impossible division, an
exponent out of range or a result out of range, for sums and products also that of a front part.
Quotient, remainder and modulus are defined in the same cases: the quotient times the divisor and
the remainder make up the dividend, the modulus is congruent to it, and both are nearer to zero than
the divisor, with the dividend's and the divisor's sign. -/
theorem integer_folding_exact :
    (∀ (op : Operator) (args : List Int64), op.isFloatFunction = false →
      (∀ c, op.evaluate? (args.map .int) = some c →
        (∃ v : Int64, c = .int v ∧ op.onIntegers? (args.map Int64.toInt) = some v.toInt) ∨
          ∃ holds, c = .bool holds ∧ op.comparison? (args.map Int64.toInt) = some holds) ∧
      (op.evaluate? (args.map .int) = none ↔ op.Undefined (args.map Int64.toInt))) ∧
    ∀ a b : Int64,
      (evaluate? .intDiv [.int a, .int b] = none ∧ evaluate? .rem [.int a, .int b] = none ∧
        evaluate? .mod [.int a, .int b] = none) ∨
      ∃ q r m : Int64, evaluate? .intDiv [.int a, .int b] = some (.int q) ∧
        evaluate? .rem [.int a, .int b] = some (.int r) ∧
        evaluate? .mod [.int a, .int b] = some (.int m) ∧
        a.toInt = q.toInt * b.toInt + r.toInt ∧ r.toInt.natAbs < b.toInt.natAbs ∧
        (r.toInt = 0 ∨ r.toInt.sign = a.toInt.sign) ∧
        b.toInt ∣ m.toInt - a.toInt ∧ m.toInt.natAbs < b.toInt.natAbs ∧
        (m.toInt = 0 ∨ m.toInt.sign = b.toInt.sign) := by
  constructor
  · intro op args hfloat
    have haccounts := accounts_evaluate? hfloat args
    refine ⟨fun c hc ↦ ?_, fun hnone ↦ ?_, evaluate?_of_undefined hfloat⟩
    · rw [hc] at haccounts
      cases haccounts with
      | int hv => exact .inl ⟨_, rfl, hv⟩
      | bool hholds => exact .inr ⟨_, rfl, hholds⟩
    · rw [hnone] at haccounts
      cases haccounts with
      | undefined h => exact h
  · intro a b
    by_cases h : Indivisible a.toInt b.toInt
    · exact .inl ⟨evaluate?_of_indivisible (.inl rfl) h,
        evaluate?_of_indivisible (.inr (.inl rfl)) h, evaluate?_of_indivisible (.inr (.inr rfl)) h⟩
    · have hb : b.toInt ≠ 0 := fun hb ↦ h (.inl hb)
      obtain ⟨q, hq, hqv⟩ := exists_evaluate?_of_divisible (.inl rfl) h
      obtain ⟨r, hr, hrv⟩ := exists_evaluate?_of_divisible (.inr (.inl rfl)) h
      obtain ⟨m, hm, hmv⟩ := exists_evaluate?_of_divisible (.inr (.inr rfl)) h
      simp only [onIntegers?, if_neg hb, Option.some.injEq] at hqv hrv hmv
      refine .inr ⟨q, r, m, hq, hr, hm, ?_⟩
      rw [← hqv, ← hrv, ← hmv]
      exact ⟨(Int.tdiv_mul_add_tmod a.toInt b.toInt).symm, natAbs_tmod_lt a.toInt hb,
        or_iff_not_imp_left.mpr sign_tmod_of_ne_zero, Int.dvd_fmod_sub_self,
        natAbs_fmod_lt a.toInt hb, or_iff_not_imp_left.mpr (sign_fmod_of_ne_zero hb)⟩

/-- A power of a negative base that meets the least word, and one that exceeds every word. -/
theorem integer_folding_exact_pow :
    (evaluate? .pow [.int (-2), .int 63] = some (.int Int64.minValue) ∧
      onIntegers? .pow [-2, 63] = some (-2 ^ 63)) ∧
    evaluate? .pow [.int (-2), .int 64] = none ∧ Undefined .pow [-2, 64] := by
  have hpow : evaluate? .pow [.int (-2), .int 63] = some (.int Int64.minValue) := rfl
  have hnone : evaluate? .pow [.int (-2), .int 64] = none := rfl
  refine ⟨⟨hpow, ?_⟩, hnone, ?_⟩
  · rcases (integer_folding_exact.1 .pow [-2, 63] rfl).1 _ hpow with ⟨v, hv, hexact⟩ | ⟨_, h, -⟩
    · cases hv
      exact hexact
    · cases h
  · exact (integer_folding_exact.1 .pow [-2, 64] rfl).2.mp hnone

-- over the integers this remainder is zero, but the quotient that goes with it exceeds every word
example : evaluate? .rem [.int Int64.minValue, .int (-1)] = none ∧
    onIntegers? .rem [Int64.minValue.toInt, -1] = some 0 := ⟨rfl, by decide⟩

end Operator
end SsaAdvisor
