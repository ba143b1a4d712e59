import QueryFormula.Binary.Double

/-!
# Binary fractions

A finite double is `± mantissa * 2 ^ exponent`.  `BinaryParts.ofDouble?` reads
the three parts off its bits; all exact arithmetic on doubles starts from them.
-/

namespace QueryFormula

/-- The binary fraction `± mantissa * 2 ^ exponent`. -/
structure BinaryParts where
  negative : Bool
  mantissa : Nat
  exponent : Int
deriving DecidableEq, Repr

namespace BinaryParts

/-- The least exponent of a double. -/
def leastExponent : Int := -1074

/-- The leading bit of a mantissa, which a double does not store unless its
exponent is the least. -/
def hiddenBit : Nat :=
  Nat.pow 2 52

/-- The parts of a finite double. -/
def ofDouble? (x : Double) : Option BinaryParts :=
  let fraction : Nat := x.magnitude % hiddenBit
  let biased : Nat := x.magnitude / hiddenBit
  if !x.isFinite then none
  else if biased = 0 then some ⟨x.isNegative, fraction, leastExponent⟩
  else some ⟨x.isNegative, hiddenBit + fraction, biased - 1075⟩

theorem isSome_ofDouble? (x : Double) : (ofDouble? x).isSome = x.isFinite := by
  unfold ofDouble?
  grind

/-- The nearest integer to the magnitude; a half goes up. -/
def round (x : BinaryParts) : Nat :=
  if 0 ≤ x.exponent then x.mantissa * Nat.pow 2 x.exponent.toNat
  else (2 * x.mantissa + Nat.pow 2 (-x.exponent).toNat) / Nat.pow 2 (1 - x.exponent).toNat

end BinaryParts

end QueryFormula
