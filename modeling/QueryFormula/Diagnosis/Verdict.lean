import QueryFormula.Diagnosis.Feature

/-!
# Validators

The engine that runs a query has the last word on a compiled expression.  A
`Validator` answers an inquiry with a verdict; `Validator.ofFeatures` is the one
that knows what the database supports.
-/

namespace QueryFormula

/-- A compiled expression, and where it is used. -/
structure Inquiry where
  stage : Nat
  mode : Mode
  clause : Expr
  /-- The place of the expression within its stage. -/
  index : Option Nat

/-- A problem that a validator found.  A friendly one is worded for users. -/
structure Issue where
  message : String
  friendly : Bool
deriving DecidableEq, Repr

/-- What a validator answers. -/
inductive Verdict where
  | valid
  | problem (issue : Issue)
  /-- The validator itself failed. -/
  | failed (reason : String)
deriving DecidableEq, Repr

/-- What answers inquiries. -/
abbrev Validator := Inquiry → Verdict

/-- A piece of a clause was put where an expression belongs. -/
def Inquiry.notAnExpression (inquiry : Inquiry) : Issue where
  message := "stage " ++ String.ofList (Nat.toDigits 10 inquiry.stage) ++ ": compiled " ++
    inquiry.mode.usage ++ " is not an expression"
  friendly := false

/-- Holds a clause against the features of a database. -/
def Validator.ofFeatures (features : Option (List String)) : Validator := fun inquiry =>
  if inquiry.clause.isOptions || inquiry.clause.isPairs then .problem inquiry.notAnExpression
  else
    match firstOffence features inquiry.mode inquiry.clause with
    | some offence => .problem ⟨offence.message, true⟩
    | none => .valid

end QueryFormula
