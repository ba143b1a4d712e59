import QueryFormula.Grammar.Level

/-!
# Phrases of the grammar

A `Phrase` is a derivation: it shows how a list of tokens is an expression of a
level of the grammar.  Its constructors are the rules of the grammar, and what a
rule asks of a token is part of the phrase.  `Phrase.tokens` is the list that the
phrase derives, `Phrase.tree` the expression it stands for, and `Phrase.need` the
levels of nesting that it takes up.

Nothing here reads tokens: a phrase is given, not searched for.
-/

namespace QueryFormula.Grammar

/-- The operators that chain the operands of a level. -/
def Level.joiners : Level → List Operator
  | disjunction => [.or]
  | conjunction => [.and]
  | sum => [.plus, .minus]
  | product => [.star, .slash]
  | negation | comparison | signed | primary => []

/-- The level whose expressions are the operands of a level. -/
def Level.tighter : Level → Level
  | disjunction => conjunction
  | conjunction => negation
  | negation => comparison
  | comparison => sum
  | sum => product
  | product => signed
  | signed | primary => primary

/-- A token that is one of these operators. -/
structure OperatorToken (ops : List Operator) where
  token : Token
  op : Operator
  operator_eq : token.operator? = some op
  among : op ∈ ops

/-- A name without brackets and the parentheses of its arguments. -/
structure CallTokens where
  name : Token
  opening : OperatorToken [.openParenthesis]
  closing : OperatorToken [.closeParenthesis]
  identifier : name.kind = .identifier
  bare : name.isBracketed = false

mutual

/-- A derivation of an expression of a level. -/
inductive Phrase : Level → Type
  | literal (token : Token) (value : Literal) (is : token.kind = .literal value) :
      Phrase .primary
  /-- A name alone.  No rule lets a parenthesis follow an expression, so before one
  a name is always called. -/
  | name (token : Token) (is : token.kind = .identifier) : Phrase .primary
  | emptyCall (frame : CallTokens) : Phrase .primary
  | call (frame : CallTokens) (arguments : Arguments) : Phrase .primary
  | group (opening : OperatorToken [.openParenthesis]) (inner : Phrase .disjunction)
      (closing : OperatorToken [.closeParenthesis]) : Phrase .primary
  | signed (sign : OperatorToken [.plus, .minus]) (operand : Phrase .signed) : Phrase .signed
  | negated (sign : OperatorToken [.not]) (operand : Phrase .negation) : Phrase .negation
  | compared (left : Phrase .sum) (sign : OperatorToken Operator.comparisons)
      (right : Phrase .sum) : Phrase .comparison
  /-- An operand of the level, and what its operators join to it. -/
  | chain {level : Level} (above : level ≠ .primary) (first : Phrase level.tighter)
      (links : Links level) : Phrase level

/-- The operators and operands behind the first operand of a chain. -/
inductive Links : Level → Type
  | nil {level : Level} : Links level
  | cons {level : Level} (sign : OperatorToken level.joiners) (operand : Phrase level.tighter)
      (links : Links level) : Links level

/-- One argument or more, with commas between them. -/
inductive Arguments : Type
  | last (argument : Phrase .disjunction) : Arguments
  | cons (argument : Phrase .disjunction) (comma : OperatorToken [.comma])
      (others : Arguments) : Arguments

end

mutual

/-- The tokens that a phrase derives. -/
def Phrase.tokens {level : Level} : Phrase level → List Token
  | .literal token _ _ | .name token _ => [token]
  | .emptyCall frame => [frame.name, frame.opening.token, frame.closing.token]
  | .call frame arguments =>
    frame.name :: frame.opening.token :: (arguments.tokens ++ [frame.closing.token])
  | .group opening inner closing => opening.token :: (inner.tokens ++ [closing.token])
  | .signed sign operand | .negated sign operand => sign.token :: operand.tokens
  | .compared left sign right => left.tokens ++ sign.token :: right.tokens
  | .chain _ first links => first.tokens ++ links.tokens

/-- The tokens of some links. -/
def Links.tokens {level : Level} : Links level → List Token
  | .nil => []
  | .cons sign operand links => sign.token :: (operand.tokens ++ links.tokens)

/-- The tokens of some arguments. -/
def Arguments.tokens : Arguments → List Token
  | .last argument => argument.tokens
  | .cons argument comma others => argument.tokens ++ comma.token :: others.tokens

end

mutual

/-- The expression that a phrase stands for. -/
def Phrase.tree {level : Level} : Phrase level → Expr
  | .literal token value _ => .literal value (some token.span)
  | .name token _ => Grammar.name token
  | .emptyCall frame => Grammar.call frame.name [] frame.closing.token.span
  | .call frame arguments => Grammar.call frame.name arguments.trees frame.closing.token.span
  | .group _ inner _ => inner.tree
  | .signed sign operand | .negated sign operand => unary sign.op sign.token.span operand.tree
  | .compared left sign right => binary left.tree sign.op right.tree
  | .chain _ first links => links.extend first.tree

/-- A tree, and joined to it the operands of some links, from left to right. -/
def Links.extend {level : Level} (left : Expr) : Links level → Expr
  | .nil => left
  | .cons sign operand links => links.extend (appendOperand left sign.op operand.tree)

/-- The expressions that some arguments stand for. -/
def Arguments.trees : Arguments → List Expr
  | .last argument => [argument.tree]
  | .cons argument _ others => argument.tree :: others.trees

end

/-- How many operators of a chain have begun a new clause once `op` joins an
operand to the tree `left`.  An operator that extends the tree begins none. -/
def switchesAfter (left : Expr) (op : Operator) (switches : Nat) : Nat :=
  if isChainOf left op then switches else switches + 1

mutual

/-- The levels of nesting that a phrase takes up. -/
def Phrase.need {level : Level} : Phrase level → Nat
  | .literal _ _ _ | .name _ _ | .emptyCall _ => 0
  | .call _ arguments => 1 + arguments.need
  | .group _ inner _ => 1 + inner.need
  | .signed _ operand | .negated _ operand => 1 + operand.need
  | .compared left _ right => max left.need right.need
  | .chain _ first links => max first.need (links.need first.tree 0)

/-- The levels that the operands of links take up behind the tree `left`, where
`switches` operators of the chain have begun a new clause so far. -/
def Links.need {level : Level} (left : Expr) (switches : Nat) : Links level → Nat
  | .nil => 0
  | .cons sign operand links =>
    let switches := switchesAfter left sign.op switches
    max (switches + operand.need)
      (links.need (appendOperand left sign.op operand.tree) switches)

/-- The levels that the neediest of some arguments takes up. -/
def Arguments.need : Arguments → Nat
  | .last argument => argument.need
  | .cons argument _ others => max argument.need others.need

end

end QueryFormula.Grammar
