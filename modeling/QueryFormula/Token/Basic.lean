import QueryFormula.Literal
import QueryFormula.Operator
import QueryFormula.Span

/-!
# Tokens

A token is a piece of the source with its class and its place.  Names keep
their brackets and escapes in `Token.text`; literals are decoded already.
-/

namespace QueryFormula

/-- The class of a token. -/
inductive TokenClass where
  | operator (op : Operator)
  /-- A name, bare or in brackets. -/
  | identifier
  | literal (value : Literal)
deriving DecidableEq

/-- A piece of the source. -/
structure Token where
  kind : TokenClass
  text : String
  span : Span
deriving DecidableEq

namespace Token

/-- The operator that the token is. -/
def operator? (t : Token) : Option Operator :=
  match t.kind with
  | .operator op => some op
  | _ => none

/-- The token is this operator. -/
def isOperator (t : Token) (op : Operator) : Bool :=
  t.operator? == some op

/-- The token is a name in brackets. -/
def isBracketed (t : Token) : Bool :=
  t.text.toList.head? == some '['

end Token

/-- What makes a piece of the source no token. -/
inductive LexFault where
  | invalidCharacter (c : Char)
  | invalidNumber (text : String)
  | unclosedString
  | unclosedBracket
  | nestedBracket
deriving DecidableEq, Repr

/-- The wording of a fault. -/
def LexFault.message : LexFault → String
  | invalidCharacter c => "Invalid character: " ++ c.toString
  | invalidNumber text => "Invalid number: " ++ text
  | unclosedString => "Missing closing quotes"
  | unclosedBracket => "Missing a closing bracket"
  | nestedBracket => "Bracket identifier in another bracket identifier"

/-- A fault and the part of the source it lies in. -/
structure LexError where
  fault : LexFault
  span : Span
deriving DecidableEq, Repr

end QueryFormula
