import QueryFormula.Catalog.Signature
import QueryFormula.Expr.BottomUp

/-!
# Truth values as conditions

A query wants a comparison where a column of truth values or a saved filter
stands alone as a condition.  `compareConditions` compares such operands with
`true`, in every position that the catalog declares boolean and in the tests of
conditionals; a saved filter that is a test stays as it is.
-/

namespace QueryFormula

namespace Expr

/-- A column of truth values. -/
def isTruthColumn : Expr → Bool
  | bound target _ => target.isBoolean
  | _ => false

/-- A saved filter. -/
def isSegment : Expr → Bool
  | bound target _ => target.isSegment
  | _ => false

/-- The comparison of a value with `true`. -/
def equalsTrue (e : Expr) : Expr :=
  clause "=" [e, ofBool true] e.origin

end Expr

/-- Compare a test that is a column. -/
def conditionTest (test : Expr) : Expr :=
  if test.isTruthColumn then test.equalsTrue else test

/-- Compare the tests of grouped cases. -/
def conditionTests : Expr → Expr
  | .pairs cases origin =>
    .pairs (cases.map fun (test, value) => (conditionTest test, value)) origin
  | e => e

/-- Compare the operands at boolean positions, counted without options. -/
def conditionOperands (s : Signature) (position : Nat) : List Expr → List Expr
  | [] => []
  | e :: rest =>
    if e.isOptions then e :: conditionOperands s position rest
    else
      let bare := e.isTruthColumn || e.isSegment
      let condition :=
        if bare && s.parameter? position == some .boolean then e.equalsTrue else e
      condition :: conditionOperands s (position + 1) rest

/-- Compare what stands alone as a condition in a clause. -/
def conditionClause (op : String) (operands : List Expr) (origin : Option Span) : Expr :=
  if isConditional op then .clause op (operands.map conditionTests) origin
  else
    match signature? op with
    | some s => .clause op (conditionOperands s 0 operands) origin
    | none => .clause op operands origin

/-- Compare what stands alone as a condition. -/
def compareConditions : Expr → Expr :=
  Expr.bottomUp (Expr.onClause conditionClause)

end QueryFormula
