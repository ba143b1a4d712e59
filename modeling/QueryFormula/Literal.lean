import QueryFormula.Binary.Double
import QueryFormula.Decimal.Basic

/-!
# Literals

The constants a formula can spell out.  A number beyond the range of `Decimal`
is kept as a double.
-/

namespace QueryFormula

inductive Literal where
  | text (value : String)
  | number (value : Decimal)
  | float (value : Double)
  | boolean (value : Bool)
deriving DecidableEq

/-- Two literals are worth the same: decimals by value, doubles as numbers. -/
def Literal.sameValue : Literal → Literal → Bool
  | text a, text b => a == b
  | number a, number b => a.sameValue b
  | float a, float b => a.sameValue b
  | boolean a, boolean b => a == b
  | _, _ => false

end QueryFormula
