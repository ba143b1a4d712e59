/-!
# Types of values

What a clause yields and what an argument must be.  Compatibility is neither
symmetric nor transitive: a conditional is of type `expression` and fits
wherever a scalar fits.
-/

namespace QueryFormula

/-- The type of a value or of a declared argument. -/
inductive ValueType where
  /-- Any scalar: number, text, truth value or date. -/
  | expression
  /-- An aggregated value. -/
  | aggregation
  | boolean
  | number
  | string
  | datetime
  /-- The type that the context expects. -/
  | any
deriving DecidableEq, Repr

namespace ValueType

/-- All types. -/
def all : List ValueType :=
  [expression, aggregation, boolean, number, string, datetime, any]

/-- The word for a type. -/
def name : ValueType → String
  | expression => "expression"
  | aggregation => "aggregation"
  | boolean => "boolean"
  | number => "number"
  | string => "string"
  | datetime => "datetime"
  | any => "any"

/-- A value of type `actual` may stand where `expected` is wanted. -/
def accepts (expected actual : ValueType) : Bool :=
  expected == actual ||
    match expected, actual with
    | any, _ | _, any => true
    | number, expression | string, expression | boolean, expression | datetime, expression => true
    | expression, number | expression, string | expression, boolean | expression, datetime => true
    | aggregation, number | aggregation, expression => true
    | datetime, string => true
    | _, _ => false

end ValueType

end QueryFormula
