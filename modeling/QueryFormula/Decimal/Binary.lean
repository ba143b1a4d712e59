import QueryFormula.Decimal.Basic
import QueryFormula.Binary.Parts

/-!
# From a decimal to a double

An integral decimal goes to the nearest double.  With places behind the point
the whole part and the fraction are converted apart and added, and the sum is
rounded to the decimal's places: scaled up, rounded to an integer, scaled down.
Each step rounds to a double, so the result need not be the nearest one.
-/

namespace QueryFormula

/-- The power `base ^ n` times `acc`, by repeated squaring in doubles. -/
def floatPower (base acc : Float) (n : Nat) : Float :=
  let acc := if n % 2 = 1 then acc * base else acc
  if n / 2 = 0 then acc else floatPower (base * base) acc (n / 2)
termination_by n
decreasing_by omega

/-- The nearest integral double; a half goes away from zero. -/
def roundFloat (x : Float) : Float :=
  match BinaryParts.ofDouble? (.ofFloat x) with
  | some parts => if parts.negative then -Float.ofNat parts.round else Float.ofNat parts.round
  | none => x

namespace Decimal

/-- The double that stands for the magnitude of a decimal. -/
def magnitudeFloat (x : Decimal) : Float :=
  let places := Nat.pow 10 x.scale
  let whole := Float.ofNat (x.coefficient / places)
  let fraction := Float.ofNat (x.coefficient % places) / Float.ofNat places
  if x.scale = 0 || fraction == 0 then whole
  else
    let unit := floatPower 10 1 x.scale
    roundFloat ((whole + fraction) * unit) / unit

/-- The double that stands for a decimal. -/
def toDouble (x : Decimal) : Double :=
  let magnitude := Double.ofFloat x.magnitudeFloat
  if x.negative then magnitude.negate else magnitude

end Decimal

end QueryFormula
