/-!
# Decimal fractions

Numbers are kept as they are written: a sign, an integer below `2 ^ 96` and the
number of its digits that stand behind the point.  `2.50` and `2.5` are two
decimals of one value (`Decimal.sameValue`); `Decimal.normalize` picks the
shortest of those.
-/

namespace QueryFormula

/-- Coefficients lie below this bound. -/
def coefficientBound : Nat :=
  Nat.pow 2 96

/-- The decimal fraction `± coefficient / 10 ^ scale`. -/
structure Decimal where
  negative : Bool
  coefficient : Nat
  scale : Nat
  coefficient_lt : coefficient < coefficientBound
  scale_le : scale ≤ 28
deriving DecidableEq, Repr

namespace Decimal

/-- The coefficient with its sign. -/
def numerator (x : Decimal) : Int :=
  if x.negative then -(x.coefficient : Int) else x.coefficient

/-- Two decimals stand for the same number, however many places they are
written to. -/
def sameValue (x y : Decimal) : Bool :=
  x.numerator * (Nat.pow 10 y.scale : Nat) == y.numerator * (Nat.pow 10 x.scale : Nat)

/-- The sign turned round; zero has two signs as well. -/
def negate (x : Decimal) : Decimal :=
  { x with negative := !x.negative }

/-- Cut off the zeros that end the last `scale` digits of a number: what is
left, and how many of its digits stand behind the point. -/
def cutZeros (coefficient : Nat) : Nat → Nat × Nat
  | 0 => (coefficient, 0)
  | scale + 1 =>
    if coefficient % 10 = 0 then cutZeros (coefficient / 10) scale
    else (coefficient, scale + 1)

theorem cutZeros_fst_le (coefficient scale : Nat) :
    (cutZeros coefficient scale).1 ≤ coefficient := by
  induction scale generalizing coefficient with
  | zero => exact Nat.le_refl _
  | succ scale ih =>
    rw [cutZeros]
    split
    · exact Nat.le_trans (ih _) (Nat.div_le_self _ _)
    · exact Nat.le_refl _

theorem cutZeros_snd_le (coefficient scale : Nat) :
    (cutZeros coefficient scale).2 ≤ scale := by
  induction scale generalizing coefficient with
  | zero => exact Nat.le_refl _
  | succ scale ih =>
    rw [cutZeros]
    split
    · exact Nat.le_succ_of_le (ih _)
    · exact Nat.le_refl _

/-- The same number without zeros at the end of its fraction.  Zero loses its
sign. -/
def normalize (x : Decimal) : Decimal where
  negative := x.negative && x.coefficient != 0
  coefficient := (cutZeros x.coefficient x.scale).1
  scale := (cutZeros x.coefficient x.scale).2
  coefficient_lt := Nat.lt_of_le_of_lt (cutZeros_fst_le _ _) x.coefficient_lt
  scale_le := Nat.le_trans (cutZeros_snd_le _ _) x.scale_le

/-- The digits, a point before the last `scale` of them, and a minus sign for a
negative number. -/
def chars (x : Decimal) : List Char :=
  let digits := List.leftpad (x.scale + 1) '0' (Nat.toDigits 10 x.coefficient)
  let whole := digits.take (digits.length - x.scale)
  let fraction := digits.drop (digits.length - x.scale)
  (if x.negative then ['-'] else []) ++ whole ++ (if x.scale = 0 then [] else '.' :: fraction)

/-- The decimal as text, with all its places. -/
def text (x : Decimal) : String :=
  String.ofList x.chars

end Decimal

end QueryFormula
