import QueryFormula.Catalog.Signature
import QueryFormula.Expr.BottomUp

/-!
# Normal form

What a user writes is brought into the form of a query in six steps, each a
function on trees.

* `spellOutShorthands`: a trailing shorthand such as `"case-insensitive"` becomes
  an options object;
* `foldNegations`: a `not` goes into the clause below it;
* `completeOffsets`: `offset` gets an options object in front;
* `groupConditionals`: operands of `case` and `if` are grouped in pairs;
* `hoistOptions`: options of a clause with more than two values go first;
* `wrapLiteral`: a formula that is a literal is wrapped in a clause.

All but the last go bottom-up through the tree.  `normalForm` takes the steps in
this order.
-/

namespace QueryFormula

/-- The entry that a trailing shorthand stands for. -/
def shorthandSetting? : Expr → Option (String × Bool)
  | .literal (.text "case-insensitive") _ => some ("case-sensitive", false)
  | .literal (.text "include-current") _ => some ("include-current", true)
  | _ => none

/-- The options object that stands for a shorthand. -/
def shorthandOptions? (e : Expr) : Option Expr :=
  (shorthandSetting? e).map fun (key, value) => .options [(key, .ofBool value)] e.origin

/-- A shorthand behind the declared arguments of a clause becomes options. -/
def optionsOfShorthand (op : String) (operands : List Expr) (origin : Option Span) : Expr :=
  match signature? op, operands.getLast?.bind shorthandOptions? with
  | some s, some options =>
    if s.takesOptions && s.parameters.length < operands.length then
      .clause op (operands.dropLast ++ [options]) origin
    else .clause op operands origin
  | _, _ => .clause op operands origin

/-- Replace trailing shorthands by options. -/
def spellOutShorthands : Expr → Expr :=
  Expr.bottomUp (Expr.onClause optionsOfShorthand)

/-- The clause that holds exactly where another does not. -/
def opposite? : String → Option String
  | "contains" => some "does-not-contain"
  | "is-null" => some "not-null"
  | "is-empty" => some "not-empty"
  | "does-not-contain" => some "contains"
  | "not-null" => some "is-null"
  | "not-empty" => some "is-empty"
  | _ => none

/-- The negation of a clause, if there is one without a `not`. -/
def negateClause? (origin : Option Span) : Expr → Option Expr
  | .clause op operands _ =>
    match op, operands with
    | "not", [inner] => some inner
    | _, _ => (opposite? op).map fun opposite => .clause opposite operands origin
  | _ => none

/-- A `not` goes into its operand. -/
def shortenNegation (op : String) (operands : List Expr) (origin : Option Span) : Expr :=
  match op, operands with
  | "not", [inner] => (negateClause? origin inner).getD (.clause op operands origin)
  | _, _ => .clause op operands origin

/-- Put negations into the clauses that they negate. -/
def foldNegations : Expr → Expr :=
  Expr.bottomUp (Expr.onClause shortenNegation)

/-- An options object without entries that no source spells out. -/
def noOptions : Expr :=
  .options [] none

/-- The first operand, if there is one, is an options object. -/
def leadsWithOptions (operands : List Expr) : Bool :=
  operands.head?.any Expr.isOptions

/-- `offset` begins with an options object. -/
def offsetOptions (op : String) (operands : List Expr) (origin : Option Span) : Expr :=
  if op = "offset" ∧ !leadsWithOptions operands then .clause op (noOptions :: operands) origin
  else .clause op operands origin

/-- Give every `offset` its options object. -/
def completeOffsets : Expr → Expr :=
  Expr.bottomUp (Expr.onClause offsetOptions)

/-- Operands two by two, and the one that is left over. -/
def pairUp : List Expr → List (Expr × Expr) × Option Expr
  | [] => ([], none)
  | [default] => ([], some default)
  | test :: value :: rest =>
    let (cases, default) := pairUp rest
    ((test, value) :: cases, default)

/-- The span from the first operand to the last, if both have one. -/
def operandsOrigin (operands : List Expr) : Option Span :=
  match operands.head?.bind Expr.origin, operands.getLast?.bind Expr.origin with
  | some first, some last => some (first.cover last)
  | _, _ => none

/-- The cases of a conditional, and its default under the key `default`. -/
def groupCases (operands : List Expr) : List Expr :=
  let (cases, default) := pairUp operands
  let grouped := .pairs cases (operandsOrigin operands)
  match default with
  | some e => [grouped, .options [("default", e)] e.origin]
  | none => [grouped]

/-- A conditional holds grouped cases. -/
def groupConditional (op : String) (operands : List Expr) (origin : Option Span) : Expr :=
  if isConditional op && !operands.head?.any Expr.isPairs then
    .clause op (groupCases operands) origin
  else .clause op operands origin

/-- Group the operands of conditionals. -/
def groupConditionals : Expr → Expr :=
  Expr.bottomUp (Expr.onClause groupConditional)

/-- A clause of several values and options begins with its options once it has
more than two values. -/
def leadWithOptions (op : String) (operands : List Expr) (origin : Option Span) : Expr :=
  let ofMany := (signature? op).any fun s => s.variadic && s.takesOptions
  if !ofMany || leadsWithOptions operands then .clause op operands origin
  else
    match operands.getLast? with
    | none => .clause op operands origin
    | some last =>
      if last.isOptions then
        if 3 < operands.length then .clause op (last :: operands.dropLast) origin
        else .clause op operands origin
      else if 2 < operands.length then .clause op (noOptions :: operands) origin
      else .clause op operands origin

/-- Put the options of clauses with many values first. -/
def hoistOptions : Expr → Expr :=
  Expr.bottomUp (Expr.onClause leadWithOptions)

/-- Wrap a formula that is a literal. -/
def wrapLiteral (e : Expr) : Expr :=
  if e.isLiteral then .clause "value" [e] e.origin else e

/-- The steps to the normal form, in their order. -/
def normalizations : List (Expr → Expr) := [
  spellOutShorthands,
  foldNegations,
  completeOffsets,
  groupConditionals,
  hoistOptions,
  wrapLiteral ]

/-- The normal form of a tree. -/
def normalForm (e : Expr) : Expr :=
  normalizations.foldl (fun tree step => step tree) e

end QueryFormula
