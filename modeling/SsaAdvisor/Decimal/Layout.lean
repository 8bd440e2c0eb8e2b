import SsaAdvisor.Decimal.Shortest

/-!
# Layout of decimals

A selected decimal is written positionally, always with a point and at least one digit on either
side of it, or in scientific form, with a point only between digits. A record says which exponents
are written positionally.
-/

namespace SsaAdvisor.Decimal

/-- The exponents of the leading digit that are written positionally. -/
structure Layout where
  /-- The least exponent written positionally. -/
  plainFrom : Int
  /-- The least exponent from there on that is written in scientific form. -/
  plainBelow : Int
deriving DecidableEq

private def zeros (n : Nat) : String := String.ofList (List.replicate n '0')

/-- Positional text of the digits with the point behind the first `point` of them. -/
def positional (digits : List Char) (point : Int) : String :=
  if point ≤ 0 then "0." ++ zeros (-point).toNat ++ String.ofList digits
  else
    let whole := digits.take point.toNat
    let fraction := digits.drop point.toNat
    String.ofList whole ++ zeros (point.toNat - whole.length) ++ "."
      ++ (if fraction.isEmpty then "0" else String.ofList fraction)

/-- Scientific text of the digits with the given exponent of the leading one. -/
def scientific (digits : List Char) (exponent : Int) : String :=
  let fraction := digits.drop 1
  String.ofList (digits.take 1) ++ (if fraction.isEmpty then "" else "." ++ String.ofList fraction)
    ++ "e" ++ toString exponent

/-- Text of a nonzero decimal. -/
def Layout.text (layout : Layout) (d : Decimal) : String :=
  let digits := Nat.toDigits 10 d.digits
  let leading := (digits.length : Int) + d.exponent - 1
  if layout.plainFrom ≤ leading ∧ leading < layout.plainBelow
  then positional digits (leading + 1)
  else scientific digits leading

/-- Text of a binary64 number: the shortest decimal that reads back, behind a minus sign if the sign
bit is set; a NaN shows no sign. -/
def Layout.render (layout : Layout) (x : Float) : String :=
  if x.isNaN then "NaN"
  else
    let magnitude :=
      if x.isInf then "inf"
      else if x == 0 then "0.0"
      else layout.text (shortest (Binary64.ofFloat x))
    if Binary64.isNegative x then "-" ++ magnitude else magnitude

end SsaAdvisor.Decimal
