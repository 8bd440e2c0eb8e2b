import SsaAdvisor.Binary64

/-!
# The shortest decimal that identifies a binary64 number

Every finite binary64 number stands for an interval of reals, those that round to it. Selection
tries the grids of one, two, … decimal digits and takes a point of the first grid that meets the
interval; of two such points the nearer, and the larger one on an exact tie. All comparisons are
made between natural numbers.
-/

namespace SsaAdvisor

/-- The number `digits * 10 ^ exponent`. -/
structure Decimal where
  digits : Nat
  exponent : Int
deriving DecidableEq

namespace Decimal

/-- Order of `a * 10 ^ i` and `b * 2 ^ j`, cross-multiplied so that no exponent is negative. -/
def compareScaled (a : Nat) (i : Int) (b : Nat) (j : Int) : Ordering :=
  compare (a * Nat.pow 10 i.toNat * Nat.pow 2 (-j).toNat)
    (b * Nat.pow 2 j.toNat * Nat.pow 10 (-i).toNat)

/-- Whether the decimal lies among the reals that round to `x`. The ends of the interval lie halfway
to the neighbours of `x`, and belong to it when the last bit of `x` is zero. -/
def readsBack (x : Binary64) (d : Decimal) : Bool :=
  let low := 4 * x.m - (if x.narrowBelow then 1 else 2)
  let high := 4 * x.m + 2
  let closed := x.m % 2 == 0
  let fromLow := compareScaled d.digits d.exponent low (x.q - 2)
  let toHigh := compareScaled d.digits d.exponent high (x.q - 2)
  (fromLow == .gt || (closed && fromLow == .eq)) && (toHigh == .lt || (closed && toHigh == .eq))

/-- The largest multiple of `10 ^ exponent` that is at most `x`, as its factor. -/
def floorOnGrid (x : Binary64) (exponent : Int) : Nat :=
  (x.m * Nat.pow 2 x.q.toNat * Nat.pow 10 (-exponent).toNat)
    / (Nat.pow 2 (-x.q).toNat * Nat.pow 10 exponent.toNat)

/-- The least `k` with `x < 10 ^ k`, for a nonzero `x`. The binary logarithm gives an estimate from
below; of the four candidates from there on the first one that bounds `x` is taken. -/
def scale (x : Binary64) : Int :=
  -- `1233 / 4096` is a little less than the decimal logarithm of two
  let estimate := ((x.m.log2 : Int) + x.q) * 1233 / 4096
  ([estimate - 1, estimate, estimate + 1].find? fun k ↦ compareScaled 1 k x.m x.q == .gt).getD
    (estimate + 2)

/-- The point of the decimal grid `10 ^ exponent` that reads back to `x`, if one of the two
neighbours of `x` on that grid does. -/
def onGrid? (x : Binary64) (exponent : Int) : Option Decimal :=
  let below : Decimal := ⟨floorOnGrid x exponent, exponent⟩
  let above : Decimal := ⟨below.digits + 1, exponent⟩
  match readsBack x below, readsBack x above with
  | true, true =>
    -- twice `x` against the sum of the two neighbours
    if compareScaled (below.digits + above.digits) exponent x.m (x.q + 1) == .gt
    then some below else some above
  | true, false => some below
  | false, true => some above
  | false, false => none

/-- Moves trailing zeros of the digits into the exponent, at most `fuel` of them. -/
def trim : Nat → Decimal → Decimal
  | 0, d => d
  | fuel + 1, d => if d.digits % 10 = 0 then trim fuel ⟨d.digits / 10, d.exponent + 1⟩ else d

/-- The exact value of `x` as a decimal. -/
def exact (x : Binary64) : Decimal :=
  ⟨x.m * Nat.pow 2 x.q.toNat * Nat.pow 5 (-x.q).toNat, min x.q 0⟩

/-- The decimal with the fewest digits that reads back to a nonzero `x`. Seventeen digits are enough
for every binary64 number; the exact value stands behind them so that the function is total. -/
def shortest (x : Binary64) : Decimal :=
  let k := scale x
  let found := (List.range 17).findSome? fun n ↦ onGrid? x (k - (n + 1 : Nat))
  trim 20 (found.getD (exact x))

/-- What selection finds on a grid reads back to the number it was selected for. -/
theorem readsBack_of_onGrid? {x : Binary64} {exponent : Int} {d : Decimal}
    (h : onGrid? x exponent = some d) : readsBack x d = true := by
  simp only [onGrid?] at h
  split at h
  · split at h <;> simp_all
  all_goals simp_all

end Decimal
end SsaAdvisor
