import QueryFormula.Grammar.Failure
import QueryFormula.Grammar.Node

/-!
# Chains of operators and lists of arguments

Both are loops over a rule for their members, which is handed in and only ever
applied to lists within a bound.

Operators of one precedence associate to the left, and a run of one operator
makes one flat clause.  A switch of operator nests the tree one level deeper;
the level is kept until the chain ends.
-/

namespace QueryFormula.Grammar

/-- A rule on lists of fewer than `bound` tokens. -/
abbrev Rule (α : Type) (bound : Nat) :=
  (tokens : List Token) → tokens.length < bound → (depth : Nat) →
    Except Failure (Parsed Token α tokens.length)

/-- The first token, if it is one of these operators. -/
def operatorAmong? (ops : List Operator) (token : Token) : Option Operator :=
  token.operator?.filter (· ∈ ops)

/-- The operators and operands that follow the operand `left`. -/
def chainTail {bound : Nat} (ops : List Operator) (operand : Rule Expr bound) (left : Expr)
    (tokens : List Token) (within : tokens.length < bound) (depth : Nat) :
    Except Failure (Parsed Token Expr (tokens.length + 1)) :=
  match tokens, within with
  | [], _ => .ok ⟨left, [], Nat.lt_succ_self _⟩
  | token :: rest, within =>
    match operatorAmong? ops token with
    | none => .ok ⟨left, token :: rest, Nat.lt_succ_self _⟩
    | some op =>
      if !isChainOf left op && depthLimit ≤ depth then fail .tooDeep token.span rest depth
      else do
        let depth := if isChainOf left op then depth else depth + 1
        let right ← operand rest (Nat.lt_of_succ_lt within) depth
        let whole ← chainTail ops operand (appendOperand left op right.value) right.rest
          (Nat.lt_trans right.shorter (Nat.lt_of_succ_lt within)) depth
        pure (whole.widen (by have := right.shorter; simp only [List.length_cons]; omega))
termination_by tokens.length
decreasing_by have := right.shorter; simp only [List.length_cons]; omega

/-- A chain: an operand, then operators and operands. -/
def chain (ops : List Operator) (tokens : List Token) (operand : Rule Expr (tokens.length + 1))
    (depth : Nat) : Except Failure (Parsed Token Expr tokens.length) := do
  let first ← operand tokens (Nat.lt_succ_self _) depth
  let whole ← chainTail ops operand first.value first.rest (Nat.lt_succ_of_lt first.shorter) depth
  pure (whole.widen first.shorter)

/-- One argument or more, with commas between them. -/
def arguments {bound : Nat} (argument : Rule Expr bound) (tokens : List Token)
    (within : tokens.length < bound) (depth : Nat) :
    Except Failure (Parsed Token (List Expr) tokens.length) := do
  let first ← argument tokens within depth
  match _h : first.rest with
  | [] => pure (first.map ([·]))
  | token :: rest =>
    if token.isOperator .comma then do
      have shorter : rest.length < tokens.length := first.rest_length_lt _h
      let others ← arguments argument rest (Nat.lt_trans shorter within) depth
      pure ((others.map (first.value :: ·)).widen (Nat.le_of_lt shorter))
    else pure (first.map ([·]))
termination_by tokens.length
decreasing_by exact shorter

end QueryFormula.Grammar
