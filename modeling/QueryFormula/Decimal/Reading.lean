import QueryFormula.Decimal.Basic

/-!
# Reading a decimal

The digits before the point must make a coefficient below `coefficientBound`.
Behind the point, digits are taken while the scale stays within 28 and the
coefficient below the bound; the first digit that is not taken decides alone
whether the last place is rounded up, and the digits behind it do not count.

An exponent moves the point, without rounding: `Decimal.shiftLeft?` and
`Decimal.shiftRight?` refuse what the coefficient and the scale cannot hold.
-/

namespace QueryFormula

/-- The number that a run of decimal digits writes. -/
def digitsValue (digits : List Char) : Nat :=
  Nat.ofDigitChars 10 digits 0

namespace Decimal

/-- One unit more in the last place.  A coefficient that would reach its bound
gives up its last place, if that stands behind the point. -/
def roundUp? (x : Decimal) : Option Decimal :=
  if h : x.coefficient + 1 < coefficientBound then
    some { x with coefficient := x.coefficient + 1, coefficient_lt := h }
  else if x.scale = 0 then none
  else some
    { x with
      coefficient := (x.coefficient + 5) / 10
      scale := x.scale - 1
      coefficient_lt := by have := x.coefficient_lt; omega
      scale_le := by have := x.scale_le; omega }

/-- The digits of a fraction, appended to the places that `x` has. -/
def appendFraction? (x : Decimal) : List Char → Option Decimal
  | [] => some x
  | d :: rest =>
    let coefficient := x.coefficient * 10 + (d.toNat - '0'.toNat)
    if h : x.scale < 28 ∧ coefficient < coefficientBound then
      appendFraction?
        { x with
          coefficient := coefficient
          scale := x.scale + 1
          coefficient_lt := h.2
          scale_le := h.1 } rest
    else if 5 ≤ d.toNat - '0'.toNat then x.roundUp? else some x

/-- The decimal whose digits before and behind the point are given. -/
def ofDigits? (whole fraction : List Char) : Option Decimal :=
  if h : digitsValue whole < coefficientBound then
    appendFraction? ⟨false, digitsValue whole, 0, h, by omega⟩ fraction
  else none

/-- The point moved `places` to the left. -/
def shiftLeft? (x : Decimal) (places : Nat) : Option Decimal :=
  if h : x.scale + places ≤ 28 then some { x with scale := x.scale + places, scale_le := h }
  else none

/-- The point moved `places` to the right. -/
def shiftRight? (x : Decimal) (places : Nat) : Option Decimal :=
  if places ≤ x.scale then
    some { x with scale := x.scale - places, scale_le := by have := x.scale_le; omega }
  else if places ≤ 28 then
    let coefficient := x.coefficient * Nat.pow 10 (places - x.scale)
    if h : coefficient < coefficientBound then
      some ⟨x.negative, coefficient, 0, h, by omega⟩
    else none
  else none

end Decimal

end QueryFormula
