import QueryFormula.Catalog.ValueType
import QueryFormula.Text.Blank

/-!
# The catalog of clauses

Every clause that a formula may use has a `Signature`: the name in compiled
output, the function name that users write, the type of its value, and what
operands it takes.  `catalog` is the table of them; `signature?` looks a clause
up by its compiled name and `clauseNamed?` by the name that a user wrote.
-/

namespace QueryFormula

/-- The shape of a clause. -/
structure Signature where
  /-- The name in compiled output. -/
  name : String
  /-- The function name that users write. -/
  displayName : String
  /-- The type of the value. -/
  kind : ValueType
  /-- The declared positional arguments. -/
  parameters : List ValueType
  /-- An options object may follow the arguments. -/
  takesOptions : Bool
  /-- Any number of arguments may follow the declared ones. -/
  variadic : Bool
  /-- The database feature that the clause depends on. -/
  feature? : Option String
deriving DecidableEq, Repr

namespace Signature

/-- The same clause, with an options object. -/
def withOptions (s : Signature) : Signature :=
  { s with takesOptions := true }

/-- The same clause, with any number of further arguments. -/
def andMore (s : Signature) : Signature :=
  { s with variadic := true }

/-- The same clause, on databases with this feature only. -/
def requires (s : Signature) (feature : String) : Signature :=
  { s with feature? := some feature }

/-- The declared type of the argument at a position; a variadic clause repeats
its last declared type. -/
def parameter? (s : Signature) (position : Nat) : Option ValueType :=
  match s.parameters[position]? with
  | some declared => some declared
  | none => if s.variadic then s.parameters.getLast? else none

/-- Users write the clause as a function: its name is made of letters, not of
signs. -/
def isNamed (s : Signature) : Bool :=
  s.displayName.toList.any Char.isAlpha

end Signature

/-- A clause that takes no more than its declared arguments. -/
def declare (name displayName : String) (kind : ValueType) (parameters : List ValueType) :
    Signature :=
  ⟨name, displayName, kind, parameters, false, false, none⟩

open ValueType in
/-- All clauses. -/
def catalog : List Signature := [
  -- aggregations
  declare "count" "Count" aggregation [],
  declare "cum-count" "CumulativeCount" aggregation [],
  declare "sum" "Sum" aggregation [number],
  declare "cum-sum" "CumulativeSum" aggregation [number],
  declare "distinct" "Distinct" aggregation [expression],
  (declare "stddev" "StandardDeviation" aggregation [number])
    |>.requires "standard-deviation-aggregations",
  (declare "var" "Variance" aggregation [number]).requires "standard-deviation-aggregations",
  declare "avg" "Average" aggregation [number],
  (declare "median" "Median" aggregation [number]).requires "percentile-aggregations",
  (declare "percentile" "Percentile" aggregation [number, number])
    |>.requires "percentile-aggregations",
  declare "min" "Min" aggregation [expression],
  declare "max" "Max" aggregation [expression],
  declare "share" "Share" aggregation [boolean],
  declare "count-where" "CountIf" aggregation [boolean],
  declare "sum-where" "SumIf" aggregation [number, boolean],
  (declare "offset" "Offset" any [expression, number]).requires "window-functions/offset",
  -- texts
  declare "lower" "lower" string [string],
  declare "upper" "upper" string [string],
  declare "substring" "substring" string [string, number, number],
  (declare "regex-match-first" "regexextract" string [string, string]).requires "regex",
  (declare "concat" "concat" string [expression]).andMore,
  declare "trim" "trim" string [string],
  declare "ltrim" "ltrim" string [string],
  declare "rtrim" "rtrim" string [string],
  declare "replace" "replace" string [string, string, string],
  declare "length" "length" number [string],
  -- numbers
  declare "abs" "abs" number [number],
  declare "floor" "floor" number [number],
  declare "ceil" "ceil" number [number],
  declare "round" "round" number [number],
  declare "sqrt" "sqrt" number [number],
  declare "power" "power" number [number, number],
  declare "log" "log" number [number],
  declare "exp" "exp" number [number],
  -- dates
  declare "now" "now" datetime [],
  declare "get-year" "year" number [datetime],
  declare "get-month" "month" number [datetime],
  declare "get-day" "day" number [datetime],
  declare "datetime-add" "datetimeAdd" datetime [datetime, number, string],
  declare "datetime-diff" "datetimeDiff" number [datetime, datetime, string],
  -- filters
  declare "between" "between" boolean [expression, expression, expression],
  (declare "time-interval" "interval" boolean [expression, number, string]).withOptions,
  declare "is-null" "isNull" boolean [expression],
  declare "not-null" "notNull" boolean [expression],
  declare "is-empty" "isEmpty" boolean [expression],
  declare "not-empty" "notEmpty" boolean [expression],
  (declare "contains" "contains" boolean [string, string]).withOptions.andMore,
  (declare "does-not-contain" "doesNotContain" boolean [string, string]).withOptions.andMore,
  (declare "starts-with" "startsWith" boolean [string, string]).withOptions.andMore,
  (declare "ends-with" "endsWith" boolean [string, string]).withOptions.andMore,
  (declare "in" "in" boolean [expression, expression]).andMore,
  (declare "not-in" "notIn" boolean [expression, expression]).andMore,
  -- logical connectives
  (declare "and" "AND" boolean [boolean, boolean]).andMore,
  (declare "or" "OR" boolean [boolean, boolean]).andMore,
  declare "not" "NOT" boolean [boolean],
  -- comparisons
  declare "=" "=" boolean [expression, expression],
  declare "!=" "!=" boolean [expression, expression],
  declare "<" "<" boolean [expression, expression],
  declare "<=" "<=" boolean [expression, expression],
  declare ">" ">" boolean [expression, expression],
  declare ">=" ">=" boolean [expression, expression],
  -- arithmetic; a sign with one operand is a clause of one operand
  (declare "+" "+" number [number]).andMore,
  (declare "-" "-" number [number]).andMore,
  (declare "*" "*" number [number, number]).andMore,
  (declare "/" "/" number [number, number]).andMore,
  -- conditionals
  (declare "case" "case" expression [boolean, expression]).andMore,
  (declare "if" "if" expression [boolean, expression]).andMore,
  (declare "coalesce" "coalesce" expression [expression, expression]).andMore,
  -- the wrapper of a formula that is a literal
  declare "value" "value" any [any] ]

/-- The clause of a compiled name. -/
def signature? (name : String) : Option Signature :=
  catalog.find? fun s => s.name == name

/-- The compiled name of the function that a user wrote.  Blanks around it and
the case of ASCII letters do not count; no function name holds a letter that
another script's capital turns into.  The logical keywords are operators. -/
def clauseNamed? (function : String) : Option String :=
  let key := (trim function).map Char.toLower
  if key = "and" ∨ key = "or" ∨ key = "not" then none
  else (catalog.find? fun s => s.isNamed && s.displayName.map Char.toLower == key).map (·.name)

/-- The clause of the function that a user wrote. -/
def functionNamed? (function : String) : Option Signature :=
  (clauseNamed? function).bind signature?

/-- The clause is a conditional, whose operands are grouped in pairs. -/
def isConditional (operator : String) : Bool :=
  operator == "case" || operator == "if"

end QueryFormula
