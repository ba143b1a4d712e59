import QueryFormula.Catalog.Signature
import QueryFormula.Expr.Basic
import QueryFormula.Token.Basic
import QueryFormula.Token.Bracketed

/-!
# What the rules of the grammar build

A run of one operator makes one flat clause; another operator begins a new one.
A clause of operators lies between its outermost operands; a group adds nothing
to the place of what it encloses.
-/

namespace QueryFormula.Grammar

/-- The clause of a binary operator. -/
def binary (left : Expr) (op : Operator) (right : Expr) : Expr :=
  .clause op.symbol [left, right] (Span.cover? left.origin right.origin)

/-- The tree is a chain of this operator.  A clause with one operand is not: a
sign is never extended. -/
def isChainOf (left : Expr) (op : Operator) : Bool :=
  match left with
  | .clause name operands _ => name == op.symbol && 2 ≤ operands.length
  | _ => false

/-- One operand more: a further one for a chain of the same operator, else the
second one of a new clause. -/
def appendOperand (left : Expr) (op : Operator) (right : Expr) : Expr :=
  match left with
  | .clause name operands origin =>
    if isChainOf left op then
      .clause name (operands ++ [right]) (Span.cover? origin right.origin)
    else binary left op right
  | _ => binary left op right

/-- An operator before its operand, and the place of both. -/
def signOrigin (sign : Span) (operand : Expr) : Option Span :=
  some (sign.cover (operand.origin.getD sign))

/-- An operator with one operand.  A minus sign goes into a number literal. -/
def unary (op : Operator) (sign : Span) (operand : Expr) : Expr :=
  let origin := signOrigin sign operand
  match op, operand with
  | .minus, .literal (.number x) _ => .literal (.number x.negate) origin
  | .minus, .literal (.float x) _ => .literal (.float x.negate) origin
  | _, _ => .clause op.symbol [operand] origin

/-- A call of a function by the name that a user wrote; the text of an unknown
name stays, for the checker to complain about. -/
def call (name : Token) (operands : List Expr) (close : Span) : Expr :=
  .clause ((clauseNamed? name.text).getD name.text) operands (some (name.span.cover close))

/-- A name that is not called.  In brackets it is always a column. -/
def name (token : Token) : Expr :=
  let text := if token.isBracketed then Bracketed.name token.text else token.text
  .reference .dimension text (some token.span)

end QueryFormula.Grammar
