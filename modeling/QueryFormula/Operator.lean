/-!
# Operators

The punctuation and the operators of the formula language.  Every operator but
the three punctuation marks builds a clause, which bears the operator's symbol
as its name.
-/

namespace QueryFormula

inductive Operator where
  | comma
  | openParenthesis
  | closeParenthesis
  | plus
  | minus
  | star
  | slash
  | equal
  | notEqual
  | less
  | greater
  | lessEqual
  | greaterEqual
  | not
  | and
  | or
deriving DecidableEq, Repr

namespace Operator

/-- How the operator is written; the three words are written in any case. -/
def symbol : Operator → String
  | comma => ","
  | openParenthesis => "("
  | closeParenthesis => ")"
  | plus => "+"
  | minus => "-"
  | star => "*"
  | slash => "/"
  | equal => "="
  | notEqual => "!="
  | less => "<"
  | greater => ">"
  | lessEqual => "<="
  | greaterEqual => ">="
  | not => "not"
  | and => "and"
  | or => "or"

/-- The clause that the operator builds; punctuation builds none. -/
def clause? : Operator → Option String
  | comma | openParenthesis | closeParenthesis => none
  | op => some op.symbol

/-- What the operator is called in a message. -/
def describe : Operator → String
  | comma => "comma"
  | openParenthesis => "opening parenthesis"
  | closeParenthesis => "closing parenthesis"
  | op => op.symbol

/-- The operators between two compared values. -/
def comparisons : List Operator :=
  [equal, notEqual, less, greater, lessEqual, greaterEqual]

end Operator

end QueryFormula
