import QueryFormula.Grammar.Level

/-!
# Parsing

A `Parser` holds the tokens that are left of a source and the depth at which
reading stands.  It goes on to be usable after an error: then it stands where
the error was met, and keeps the levels that an unfinished chain had taken.

`parse` reads a whole formula with a fresh parser.
-/

namespace QueryFormula

/-- Reading in progress. -/
structure Parser where
  /-- The length of the source. -/
  ending : Nat
  rest : List Token
  depth : Nat

namespace Parser

/-- A fresh parser of the tokens of a source. -/
def ofSource (source : String) (tokens : List Token) : Parser :=
  ⟨byteLength source.toList, tokens, 0⟩

/-- Read an expression and leave what follows it. -/
def expression (p : Parser) : Except ParseError Expr × Parser :=
  match Grammar.Level.disjunction.read p.ending p.rest p.depth with
  | .ok parsed => (.ok parsed.value, { p with rest := parsed.rest })
  | .error failure => (.error failure.error, ⟨p.ending, failure.rest, failure.depth⟩)

/-- Read an expression behind which no token may stand. -/
def formula (p : Parser) : Except ParseError Expr × Parser :=
  match p.expression with
  | (.ok tree, after) =>
    match after.rest with
    | [] => (.ok tree, after)
    | token :: _ => (.error ⟨.trailing token.text, token.span⟩, after)
  | (.error error, after) => (.error error, after)

end Parser

/-- The tree of a whole formula. -/
def parse (source : String) (tokens : List Token) : Except ParseError Expr :=
  (Parser.ofSource source tokens).formula.1

end QueryFormula
