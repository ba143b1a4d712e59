import QueryFormula.Parsed
import QueryFormula.Token.Basic

/-!
# Reading tokens: results and failures

A rule of the grammar reads a value off the front of a token list.  On success
it leaves fewer tokens than it was given (`Parsed`); on failure it says what is
wrong, and where reading stopped.

The nesting of what is being read is counted, up to `depthLimit`.  `deeper` runs
a rule one level deeper and takes the level back afterwards.
-/

namespace QueryFormula

/-- What violates the grammar. -/
inductive ParseFault where
  | tooDeep
  /-- A group without its closing parenthesis. -/
  | unclosedGroup
  /-- Arguments without a closing parenthesis, before a token or the end. -/
  | unclosedCall (found : Option String)
  | unexpectedEnd
  | unexpectedOperator (text : String)
  /-- A token behind a complete expression. -/
  | trailing (text : String)
deriving DecidableEq, Repr

/-- The wording of a fault. -/
def ParseFault.message : ParseFault → String
  | tooDeep => "Expression is too deeply nested"
  | unclosedGroup => "Expecting a closing parenthesis"
  | unclosedCall (some text) =>
    "Expecting " ++ Operator.closeParenthesis.describe ++ " but got " ++ text ++ " instead"
  | unclosedCall none =>
    "Unexpected end of input, expecting " ++ Operator.closeParenthesis.describe
  | unexpectedEnd => "Unexpected end of input"
  | unexpectedOperator text => "Unexpected operator " ++ text
  | trailing text => "Expecting end of expression but got " ++ text ++ " instead"

/-- A fault and the place it lies at. -/
structure ParseError where
  fault : ParseFault
  span : Span
deriving DecidableEq, Repr

namespace Grammar

/-- An error, and where reading stopped: the tokens left and the depth. -/
structure Failure where
  error : ParseError
  rest : List Token
  depth : Nat

/-- How deep groups, calls, signs and switches of operator may nest. -/
def depthLimit : Nat := 64

/-- Fail at a place. -/
def fail {α : Type} (fault : ParseFault) (span : Span) (rest : List Token) (depth : Nat) :
    Except Failure α :=
  .error ⟨⟨fault, span⟩, rest, depth⟩

/-- Run a rule one level deeper; `span` is what opened the level, and `rest`
what follows it. -/
def deeper {α : Type} (span : Span) (rest : List Token) (depth : Nat)
    (inner : Nat → Except Failure α) : Except Failure α :=
  if depthLimit ≤ depth then fail .tooDeep span rest depth
  else
    match inner (depth + 1) with
    | .ok value => .ok value
    | .error failure => .error { failure with depth := failure.depth - 1 }

end Grammar

end QueryFormula
