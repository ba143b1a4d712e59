import QueryFormula.Grammar.Chain

/-!
# The grammar

The levels of the grammar, from the loosest binding to the tightest:

    Disjunction ::= Conjunction ("OR" Conjunction)*
    Conjunction ::= Negation ("AND" Negation)*
    Negation    ::= "NOT" Negation | Comparison
    Comparison  ::= Sum (("=" | "!=" | "<" | ">" | "<=" | ">=") Sum)?
    Sum         ::= Product (("+" | "-") Product)*
    Product     ::= Signed (("*" | "/") Signed)*
    Signed      ::= ("+" | "-") Signed | Primary
    Primary     ::= Literal | Name | Name Arguments | Group
    Arguments   ::= "(" ")" | "(" Disjunction ("," Disjunction)* ")"
    Group       ::= "(" Disjunction ")"

`Level.read` reads an expression of a level off a token list.  A call goes from
a level to the next tighter one on the same tokens, or to any level on fewer
tokens; that is why it ends.
-/

namespace QueryFormula.Grammar

/-- The levels of the grammar. -/
inductive Level where
  | disjunction
  | conjunction
  | negation
  | comparison
  | sum
  | product
  | signed
  | primary
deriving DecidableEq, Repr

/-- How many levels bind tighter. -/
def Level.height : Level → Nat
  | disjunction => 7
  | conjunction => 6
  | negation => 5
  | comparison => 4
  | sum => 3
  | product => 2
  | signed => 1
  | primary => 0

/-- The end of the source, an empty span. -/
def endSpan (ending : Nat) : Span :=
  ⟨ending, ending⟩

/-- The parenthesis that closes a group which `opening` opens. -/
def closeGroup {bound : Nat} (opening : Span) (inner : Parsed Token Expr bound) (depth : Nat) :
    Except Failure (Parsed Token Expr bound) :=
  match _h : inner.rest with
  | [] => fail .unclosedGroup opening [] depth
  | token :: rest =>
    if token.isOperator .closeParenthesis then
      .ok ⟨inner.value, rest, inner.rest_length_lt _h⟩
    else fail .unclosedGroup token.span (token :: rest) depth

/-- The parenthesis that closes the arguments of a call. -/
def closeCall {bound : Nat} (ending : Nat) (name : Token)
    (arguments : Parsed Token (List Expr) bound) (depth : Nat) :
    Except Failure (Parsed Token Expr bound) :=
  match _h : arguments.rest with
  | [] => fail (.unclosedCall none) (endSpan ending) [] depth
  | token :: rest =>
    if token.isOperator .closeParenthesis then
      .ok ⟨call name arguments.value token.span, rest, arguments.rest_length_lt _h⟩
    else fail (.unclosedCall (some token.text)) token.span rest depth

/-- A comparison of `left` with what follows it, if anything is compared. -/
def compareWith {bound : Nat} (left : Parsed Token Expr bound) (right : Rule Expr bound)
    (depth : Nat) : Except Failure (Parsed Token Expr bound) :=
  match _h : left.rest with
  | [] => .ok left
  | token :: rest =>
    match operatorAmong? Operator.comparisons token with
    | none => .ok left
    | some op => do
      have shorter : rest.length < bound := left.rest_length_lt _h
      let operand ← right rest shorter depth
      pure ((operand.map (binary left.value op)).widen (Nat.le_of_lt shorter))

/-- Read an expression of a level; `ending` is the length of the source. -/
def Level.read (ending : Nat) (level : Level) (tokens : List Token) (depth : Nat) :
    Except Failure (Parsed Token Expr tokens.length) :=
  match level, tokens with
  | .disjunction, tokens =>
    chain [.or] tokens (fun ts _ d => read ending .conjunction ts d) depth
  | .conjunction, tokens =>
    chain [.and] tokens (fun ts _ d => read ending .negation ts d) depth
  | .negation, [] => read ending .comparison [] depth
  | .negation, token :: rest =>
    if token.isOperator .not then do
      let operand ← deeper token.span rest depth fun d => read ending .negation rest d
      pure ((operand.map (unary .not token.span)).widen (Nat.le_succ _))
    else read ending .comparison (token :: rest) depth
  | .comparison, tokens => do
    let left ← read ending .sum tokens depth
    compareWith left (fun ts _ d => read ending .sum ts d) depth
  | .sum, tokens =>
    chain [.plus, .minus] tokens (fun ts _ d => read ending .product ts d) depth
  | .product, tokens =>
    chain [.star, .slash] tokens (fun ts _ d => read ending .signed ts d) depth
  | .signed, [] => read ending .primary [] depth
  | .signed, token :: rest =>
    match operatorAmong? [.plus, .minus] token with
    | some op => do
      let operand ← deeper token.span rest depth fun d => read ending .signed rest d
      pure ((operand.map (unary op token.span)).widen (Nat.le_succ _))
    | none => read ending .primary (token :: rest) depth
  | .primary, [] => fail .unexpectedEnd (endSpan ending) [] depth
  | .primary, token :: rest =>
    match token.kind with
    | .literal value => .ok ⟨.literal value (some token.span), rest, Nat.lt_succ_self _⟩
    | .operator .openParenthesis => do
      let inner ← deeper token.span rest depth fun d => read ending .disjunction rest d
      let group ← closeGroup token.span inner depth
      pure (group.widen (Nat.le_succ _))
    | .operator _ => fail (.unexpectedOperator token.text) token.span rest depth
    | .identifier =>
      if token.isBracketed then .ok ⟨name token, rest, Nat.lt_succ_self _⟩
      else
        match rest with
        | [] => .ok ⟨name token, [], Nat.lt_succ_self _⟩
        | opening :: after =>
          if opening.isOperator .openParenthesis then
            match after.head?.filter (·.isOperator .closeParenthesis) with
            | some close =>
              .ok ⟨call token [] close.span, after.tail, by
                simp only [List.length_tail, List.length_cons]; omega⟩
            | none => do
              let list ← deeper opening.span after depth fun d =>
                arguments (fun ts _ d => read ending .disjunction ts d) after (Nat.lt_succ_self _) d
              let whole ← closeCall ending token list depth
              pure (whole.widen (by simp only [List.length_cons]; omega))
          else .ok ⟨name token, opening :: after, Nat.lt_succ_self _⟩
termination_by 8 * tokens.length + level.height
decreasing_by all_goals (simp_all only [Level.height, List.length_cons]; omega)

end QueryFormula.Grammar
