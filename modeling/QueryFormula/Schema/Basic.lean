import QueryFormula.Expr.Basic
import QueryFormula.Text.Blank

/-!
# Schemas

What names in a formula are bound to: for each stage of a query its columns,
saved metrics and saved filters, and for the database the features it supports.
`Lookup` is all that a compilation asks of a schema; `Schema` is the schema that is
read from a file.

Names are compared without regard to the case of ASCII letters.  A column
answers to its display name, to its own name, and to `Table → Column`.
-/

namespace QueryFormula

/-- What can be looked up in a schema: the names that a stage knows, and the features of
the database. -/
class Lookup (σ : Type) where
  field? : σ → (stage : Nat) → (name : String) → Option BoundRef
  metric? : σ → (stage : Nat) → (name : String) → Option BoundRef
  segment? : σ → (stage : Nat) → (name : String) → Option BoundRef
  /-- The supported features, if the schema lists them. -/
  features : σ → Option (List String) := fun _ => none

/-- The database that a query runs on. -/
structure Database where
  name : Option String
  /-- The supported features; all of them if none are listed. -/
  features : Option (List String)
deriving DecidableEq, Repr

/-- A column. -/
structure Field where
  id : Int64
  name : String
  displayName : Option String
  table : Option String
  baseType : String
  /-- Defined by a formula earlier in the stage. -/
  custom : Bool
deriving DecidableEq

/-- A saved metric or filter. -/
structure Saved where
  id : Int64
  name : String
deriving DecidableEq

/-- What a stage of a query can refer to. -/
structure Stage where
  fields : List Field
  metrics : List Saved
  segments : List Saved
deriving DecidableEq

/-- What the names of a formula may mean. -/
structure Schema where
  database : Database
  stages : List Stage
deriving DecidableEq

/-- Two names are one, the case of ASCII letters aside. -/
def sameName (a b : String) : Bool :=
  a.map Char.toLower == b.map Char.toLower

/-- The text before the first separator and the text behind it. -/
def splitOnce? (separator : Char) : List Char → Option (List Char × List Char)
  | [] => none
  | c :: rest =>
    if c = separator then some ([], rest)
    else (splitOnce? separator rest).map fun (before, after) => (c :: before, after)

/-- The table and the column of a name such as `Orders → Total`. -/
def qualifiedName? (name : String) : Option (String × String) :=
  (splitOnce? '→' name.toList).map fun (table, column) =>
    (String.ofList (trimChars table), String.ofList (trimChars column))

namespace Field

/-- The name that users see. -/
def label (f : Field) : String :=
  f.displayName.getD f.name

/-- The column is the one of this table and label. -/
def isQualified (f : Field) (name : String) : Bool :=
  match f.table, qualifiedName? name with
  | some table, some (before, column) => sameName table before && sameName f.label column
  | _, _ => false

/-- The column answers to a name. -/
def answersTo (f : Field) (name : String) : Bool :=
  sameName f.label name || sameName f.name name || f.isQualified name

/-- What a reference to the column is bound to. -/
def target (f : Field) : BoundRef :=
  if f.custom then .expression f.name f.baseType else .field f.id f.baseType

end Field

namespace Schema

/-- The first column of a stage that answers to a name. -/
def field? (schema : Schema) (stage : Nat) (name : String) : Option BoundRef :=
  schema.stages[stage]?.bind fun s => (s.fields.find? (·.answersTo name)).map Field.target

/-- The first metric of a stage with a name. -/
def metric? (schema : Schema) (stage : Nat) (name : String) : Option BoundRef :=
  schema.stages[stage]?.bind fun s =>
    (s.metrics.find? (sameName ·.name name)).map fun metric => .metric metric.id

/-- The first saved filter of a stage with a name. -/
def segment? (schema : Schema) (stage : Nat) (name : String) : Option BoundRef :=
  schema.stages[stage]?.bind fun s =>
    (s.segments.find? (sameName ·.name name)).map fun segment => .segment segment.id

instance : Lookup Schema where
  field? := field?
  metric? := metric?
  segment? := segment?
  features schema := schema.database.features

end Schema

end QueryFormula
