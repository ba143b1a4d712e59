import QueryFormula.Binary.Layout
import QueryFormula.Catalog.ValueType
import QueryFormula.Literal
import QueryFormula.Span

/-!
# Errors of resolution

Why a tree is refused: a name that means nothing in the schema, a function that
the catalog does not hold, a wrong number of arguments, or a value of a type
that its place does not accept.
-/

namespace QueryFormula

/-- How many arguments a function wants. -/
inductive Arity where
  | exactly (count : Nat)
  | atLeast (count : Nat)
deriving DecidableEq, Repr

/-- A value of the wrong type. -/
inductive Misfit where
  | literal (value : Literal)
  /-- A function, and the type that it returns. -/
  | call (function : String) (kind : ValueType)
deriving DecidableEq

/-- Why a tree is refused, and where. -/
inductive ResolutionError where
  | unknownField (name : String) (span : Option Span)
  | unknownMetric (name : String) (span : Option Span)
  /-- A plain column where an aggregation is expected. -/
  | noAggregation (name : String) (span : Option Span)
  | unknownSegment (name : String) (span : Option Span)
  | unknownFunction (name : String) (span : Option Span)
  | wrongArity (function : String) (arity : Arity) (span : Option Span)
  | typeMismatch (expected : ValueType) (found : Misfit) (span : Option Span)
deriving DecidableEq

/-- Doubles in messages are written positionally, integral ones without a
point. -/
def messageFloat : FloatLayout :=
  ⟨fun _ => true, false, .up⟩

/-- A double in a message. -/
def Double.describe (x : Double) : String :=
  match messageFloat.write? x with
  | some text => String.ofList text
  | none => if x.isNaN then "NaN" else if x.isNegative then "-inf" else "inf"

/-- A literal in a message. -/
def Literal.describe : Literal → String
  | text s => "\"" ++ s ++ "\""
  | number x => x.normalize.text
  | float x => x.describe
  | boolean true => "true"
  | boolean false => "false"

/-- A value of the wrong type in a message. -/
def Misfit.describe : Misfit → String
  | literal value => value.describe
  | call function kind => "function " ++ function ++ " returning " ++ kind.name

/-- So many arguments, in a message. -/
def argumentCount (count : Nat) : String :=
  String.ofList (Nat.toDigits 10 count) ++ if count = 1 then " argument" else " arguments"

/-- How many arguments are wanted, in a message. -/
def Arity.describe : Arity → String
  | exactly count => argumentCount count
  | atLeast count => "at least " ++ argumentCount count

namespace ResolutionError

/-- The wording of an error. -/
def message : ResolutionError → String
  | unknownField name _ => "Unknown Field: " ++ name
  | unknownMetric name _ => "Unknown Metric: " ++ name
  | noAggregation name _ =>
    "No aggregation found in: " ++ name ++ ". Use functions like Sum() or custom Metrics"
  | unknownSegment name _ => "Unknown Segment: " ++ name
  | unknownFunction name _ => "Unknown function " ++ name
  | wrongArity function arity _ => "Function " ++ function ++ " expects " ++ arity.describe
  | typeMismatch expected found _ =>
    "Expecting " ++ expected.name ++ " but found " ++ found.describe

/-- Where the error lies. -/
def span : ResolutionError → Option Span
  | unknownField _ s | unknownMetric _ s | noAggregation _ s | unknownSegment _ s
  | unknownFunction _ s | wrongArity _ _ s | typeMismatch _ _ s => s

/-- The error is about a name that could not be bound. -/
def isUnknownName : ResolutionError → Bool
  | unknownField _ _ | unknownMetric _ _ | noAggregation _ _ | unknownSegment _ _ => true
  | _ => false

end ResolutionError

end QueryFormula
