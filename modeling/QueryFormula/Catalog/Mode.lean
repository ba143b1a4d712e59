import QueryFormula.Catalog.ValueType
import QueryFormula.Text.LowerCase

/-!
# Modes

A formula defines a custom column, an aggregation or a filter, and its mode
says which.
-/

namespace QueryFormula

/-- What a formula is written for. -/
inductive Mode where
  /-- A custom column. -/
  | expression
  /-- A custom aggregation. -/
  | aggregation
  /-- A custom filter. -/
  | boolean
deriving DecidableEq, Repr

namespace Mode

/-- The type that a formula of this mode must have. -/
def expected : Mode → ValueType
  | expression => .expression
  | aggregation => .aggregation
  | boolean => .boolean

/-- What the mode is called where a query is put together. -/
def usage : Mode → String
  | expression => "expression"
  | aggregation => "aggregation"
  | boolean => "filter"

/-- The mode of a name in any case, or the name in lower case if it is none. -/
def ofName (name : String) : Except String Mode :=
  match lowerCase name with
  | "expression" => .ok expression
  | "aggregation" => .ok aggregation
  | "boolean" => .ok boolean
  | "filter" => .ok boolean
  | other => .error other

/-- The wording of an unknown mode. -/
def unknownMessage (lowered : String) : String :=
  "unknown mode '" ++ lowered ++ "' (expected expression, aggregation or boolean)"

end Mode

end QueryFormula
