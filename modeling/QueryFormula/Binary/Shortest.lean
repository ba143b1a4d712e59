import QueryFormula.Binary.Parts

/-!
# The shortest decimal that reads back

A double stands for all reals that round to it.  Of the decimals among them,
those with the fewest digits are looked for, and of these the one nearest to the
double's own value is taken.  The search goes through the decimal grids, coarse
to fine: if a grid has a point in the interval, so is one of the two neighbours
of the value on that grid.  All comparisons are exact, in natural numbers.
-/

namespace QueryFormula

/-- The positive decimal `d.ddd * 10 ^ exponent` with these digits. -/
structure DigitString where
  digits : List Char
  exponent : Int
deriving DecidableEq, Repr

/-- Which of two neighbours is taken when both are equally near. -/
inductive Tie where
  | up
  | even
deriving DecidableEq, Repr

namespace BinaryParts

/-- Quarters of the last binary place of `x`, counted in the decimal unit
`10 ^ place`, as numerator and denominator. -/
def quarterUnit (x : BinaryParts) (place : Int) : Nat × Nat :=
  (Nat.pow 2 (x.exponent - 2).toNat * Nat.pow 10 (-place).toNat,
    Nat.pow 2 (2 - x.exponent).toNat * Nat.pow 10 place.toNat)

/-- The quarter units from the value down to the end of its interval.  Below a
power of two the doubles lie twice as dense. -/
def quartersBelow (x : BinaryParts) : Nat :=
  if x.mantissa = hiddenBit ∧ leastExponent < x.exponent then 1 else 2

/-- The decimal exponent of the first digit of a positive value. -/
def leadingPlace (x : BinaryParts) : Int :=
  let num := x.mantissa * Nat.pow 2 x.exponent.toNat
  let den := Nat.pow 2 (-x.exponent).toNat
  let guess : Int := (Nat.toDigits 10 num).length - (Nat.toDigits 10 den).length
  if den * Nat.pow 10 guess.toNat ≤ num * Nat.pow 10 (-guess).toNat then guess else guess - 1

/-- The multiple of `10 ^ place` that rounds to `x` and lies nearest to it. -/
def gridPoint? (x : BinaryParts) (tie : Tie) (place : Int) : Option Nat :=
  let (num, den) := x.quarterUnit place
  let value := 4 * x.mantissa * num
  let low := (4 * x.mantissa - x.quartersBelow) * num
  let high := (4 * x.mantissa + 2) * num
  let inside (k : Nat) : Bool :=
    if x.mantissa % 2 = 0 then low ≤ k * den && k * den ≤ high
    else low < k * den && k * den < high
  let k := value / den
  match inside k, inside (k + 1) with
  | false, false => none
  | true, false => some k
  | false, true => some (k + 1)
  | true, true =>
    match compare (value - k * den) ((k + 1) * den - value) with
    | .lt => some k
    | .gt => some (k + 1)
    | .eq => if tie = .even ∧ k % 2 = 0 then some k else some (k + 1)

/-- The decimal `k * 10 ^ place`, without zeros at its end. -/
def digitString (k : Nat) (place : Int) : DigitString :=
  let digits := Nat.toDigits 10 k
  let short := (digits.reverse.dropWhile (· == '0')).reverse
  ⟨if short = [] then ['0'] else short, place + digits.length - 1⟩

/-- The fewest digits that read back as the magnitude of `x`; 17 always do. -/
def shortest (x : BinaryParts) (tie : Tie) : DigitString :=
  if x.mantissa = 0 then ⟨['0'], 0⟩
  else
    let leading := x.leadingPlace
    let hit := (List.range 17).findSome? fun (further : Nat) =>
      (x.gridPoint? tie (leading - further)).map fun k => digitString k (leading - further)
    hit.getD ⟨['0'], 0⟩

end BinaryParts

end QueryFormula
