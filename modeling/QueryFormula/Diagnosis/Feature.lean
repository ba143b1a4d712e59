import QueryFormula.Catalog.Mode
import QueryFormula.Catalog.Signature
import QueryFormula.Expr.Basic

/-!
# What a database supports

Some clauses need a feature of the database, and `offset` makes sense in
aggregations only.  `firstOffence` walks a tree from the root, a clause before
its operands and these from left to right, and reports the first clause that
must not be used.
-/

namespace QueryFormula

/-- Why a clause must not be used. -/
inductive Offence where
  | offsetInColumn
  | offsetInFilter
  /-- The database lacks the feature that a function depends on. -/
  | unsupported (function : String)
deriving DecidableEq, Repr

/-- The wording of an offence. -/
def Offence.message : Offence → String
  | offsetInColumn => "OFFSET is not supported in custom columns"
  | offsetInFilter => "OFFSET is not supported in custom filters"
  | unsupported function => function ++ " is not supported by this database"

/-- The features include one; if none are listed they include all. -/
def supports (features : Option (List String)) (feature : String) : Bool :=
  features.all (·.contains feature)

/-- `offset` outside an aggregation. -/
def offsetOffence? (mode : Mode) (operator : String) : Option Offence :=
  if operator = "offset" then
    match mode with
    | .expression => some .offsetInColumn
    | .boolean => some .offsetInFilter
    | .aggregation => none
  else none

/-- A clause whose feature is missing. -/
def featureOffence? (features : Option (List String)) (operator : String) : Option Offence :=
  (signature? operator).bind fun s =>
    s.feature?.bind fun feature =>
      if supports features feature then none else some (.unsupported s.displayName)

/-- Why a clause itself must not be used. -/
def clauseOffence? (features : Option (List String)) (mode : Mode) (operator : String) :
    Option Offence :=
  (offsetOffence? mode operator).or (featureOffence? features operator)

mutual

/-- The first clause of a tree that must not be used. -/
def firstOffence (features : Option (List String)) (mode : Mode) : Expr → Option Offence
  | .clause op xs _ => (clauseOffence? features mode op).or (firstOffenceOfAll features mode xs)
  | .options es _ => firstOffenceOfEntries features mode es
  | .pairs ps _ => firstOffenceOfPairs features mode ps
  | .literal _ _ | .reference _ _ _ | .bound _ _ => none

/-- The first offence among operands. -/
def firstOffenceOfAll (features : Option (List String)) (mode : Mode) :
    List Expr → Option Offence
  | [] => none
  | x :: xs => (firstOffence features mode x).or (firstOffenceOfAll features mode xs)

/-- The first offence among the values of an options object. -/
def firstOffenceOfEntries (features : Option (List String)) (mode : Mode) :
    List (String × Expr) → Option Offence
  | [] => none
  | (_, x) :: es => (firstOffence features mode x).or (firstOffenceOfEntries features mode es)

/-- The first offence among tests and values. -/
def firstOffenceOfPairs (features : Option (List String)) (mode : Mode) :
    List (Expr × Expr) → Option Offence
  | [] => none
  | (test, value) :: ps =>
    (firstOffence features mode test).or
      ((firstOffence features mode value).or (firstOffenceOfPairs features mode ps))

end

end QueryFormula
