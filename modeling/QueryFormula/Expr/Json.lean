import QueryFormula.Binary.Layout
import QueryFormula.Decimal.Binary
import QueryFormula.Expr.Basic
import QueryFormula.Json.Writing

/-!
# The JSON form of an expression

A clause becomes an array headed by its operator, options become an object, and
a bound name takes the shape that a query gives it.  Origins are left out.

An integral number within 64 bits is written as an integer, any other number as
a double.
-/

namespace QueryFormula

/-- Doubles are written positionally from `0.00001` up to 16 digits before the
point, which an integral value keeps; else with an exponent. -/
def jsonFloat : FloatLayout :=
  ⟨fun exponent => -5 ≤ exponent && exponent < 16, true, .even⟩

/-- A double as a number; JSON has finite ones only. -/
def Json.finite? (x : Double) : Option Json :=
  (jsonFloat.write? x).map fun text => .number (String.ofList text)

/-- A double; `null` stands for one that is not finite. -/
def Json.ofDouble (x : Double) : Json :=
  (Json.finite? x).getD .null

/-- The decimal as an integer of 64 bits, if it is one. -/
def Decimal.int64? (x : Decimal) : Option Int :=
  let n := x.normalize
  if n.scale = 0 ∧ Int64.minValue.toInt ≤ n.numerator ∧ n.numerator ≤ Int64.maxValue.toInt then
    some n.numerator
  else none

/-- A decimal; its own text would stand for one that is not finite as a double. -/
def Json.ofDecimal (x : Decimal) : Json :=
  match x.int64? with
  | some n => .ofInt n
  | none => (Json.finite? x.normalize.toDouble).getD (.string x.normalize.text)

/-- A literal. -/
def Literal.toJson : Literal → Json
  | text s => .string s
  | number x => .ofDecimal x
  | float x => .ofDouble x
  | boolean b => .boolean b

/-- A bound name. -/
def BoundRef.toJson : BoundRef → Json
  | field id baseType =>
    .array [.string "field", .ofInt id.toInt, .object [("base-type", .string baseType)]]
  | expression name baseType =>
    .array [.string "expression", .string name, .object [("base-type", .string baseType)]]
  | metric id => .array [.string "metric", .ofInt id.toInt]
  | segment id => .array [.string "segment", .ofInt id.toInt]

namespace Expr

mutual

/-- The JSON form of a tree. -/
def toJson : Expr → Json
  | literal value _ => value.toJson
  | reference kind name _ => .array [.string kind.name, .string name]
  | bound target _ => target.toJson
  | clause op xs _ => .array (.string op :: toJsonAll xs)
  | options es _ => .object (toJsonEntries es)
  | pairs ps _ => .array (toJsonPairs ps)

/-- The JSON forms of operands. -/
def toJsonAll : List Expr → List Json
  | [] => []
  | x :: xs => toJson x :: toJsonAll xs

/-- The JSON forms of the entries of an options object. -/
def toJsonEntries : List (String × Expr) → List (String × Json)
  | [] => []
  | (key, x) :: es => (key, toJson x) :: toJsonEntries es

/-- The JSON forms of grouped cases. -/
def toJsonPairs : List (Expr × Expr) → List Json
  | [] => []
  | (test, value) :: ps => .array [toJson test, toJson value] :: toJsonPairs ps

end

/-- The JSON text of a tree, without blanks. -/
def json (e : Expr) : String :=
  e.toJson.compact

/-- The JSON text of a tree, one item a line. -/
def prettyJson (e : Expr) : String :=
  e.toJson.pretty

theorem toJsonAll_eq_map (xs : List Expr) : toJsonAll xs = xs.map toJson := by
  induction xs with
  | nil => rfl
  | cons x xs ih => simp [toJsonAll, ih]

theorem toJsonEntries_eq_map (es : List (String × Expr)) :
    toJsonEntries es = es.map fun e => (e.1, toJson e.2) := by
  induction es with
  | nil => rfl
  | cons e es ih => simp [toJsonEntries, ih]

theorem toJsonPairs_eq_map (ps : List (Expr × Expr)) :
    toJsonPairs ps = ps.map fun p => .array [toJson p.1, toJson p.2] := by
  induction ps with
  | nil => rfl
  | cons p ps ih => simp [toJsonPairs, ih]

end Expr

end QueryFormula
