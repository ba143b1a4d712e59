import QueryFormula.Catalog.Mode
import QueryFormula.Condition
import QueryFormula.Grammar.Parser
import QueryFormula.NormalForm
import QueryFormula.Resolution.Resolve
import QueryFormula.Schema.Basic
import QueryFormula.Token.Cursor

/-!
# Compiling a formula

From a source to the clause tree of a query: tokens, tree, normal form, bound
and checked tree, comparisons with `true`.  The first error on the way is the
answer.
-/

namespace QueryFormula

/-- What a formula is compiled for.  Any schema will do that names can be looked up in. -/
structure Context (σ : Type := Schema) where
  mode : Mode
  /-- The query stage whose names are visible. -/
  stage : Nat
  /-- The custom column being defined, which cannot refer to itself. -/
  ownName : Option String
  /-- Without a schema names stay unbound. -/
  schema : Option σ

/-- Why a source does not compile. -/
inductive CompileError where
  | lex (error : LexError)
  | parse (error : ParseError)
  | resolution (error : ResolutionError)
deriving DecidableEq

namespace CompileError

/-- The wording of an error. -/
def message : CompileError → String
  | lex e => e.fault.message
  | parse e => e.fault.message
  | resolution e => e.message

/-- Where the error lies. -/
def span : CompileError → Option Span
  | lex e => some e.span
  | parse e => some e.span
  | resolution e => e.span

end CompileError

variable {σ : Type}

namespace Context

/-- The name is that of the column being defined. -/
def isOwnName (context : Context σ) (name : String) : Bool :=
  context.ownName.any (sameName · name)

variable [Lookup σ]

/-- The column that a name means, unless it is the one being defined. -/
def field? (context : Context σ) (schema : σ) (name : String) : Option BoundRef :=
  if context.isOwnName name then none else Lookup.field? schema context.stage name

/-- Bind a name to a schema.  A column of truth values serves as a filter. -/
def target (context : Context σ) (schema : σ) (kind : NameKind) (name : String)
    (span : Option Span) : Except ResolutionError BoundRef :=
  match kind with
  | .metric =>
    match Lookup.metric? schema context.stage name with
    | some metric => .ok metric
    | none =>
      if (context.field? schema name).isSome then .error (.noAggregation name span)
      else .error (.unknownMetric name span)
  | .segment =>
    match (Lookup.segment? schema context.stage name).or
        ((context.field? schema name).filter BoundRef.isBoolean) with
    | some segment => .ok segment
    | none => .error (.unknownSegment name span)
  | .dimension =>
    match context.field? schema name with
    | some field => .ok field
    | none => .error (.unknownField name span)

/-- Bind a name, or leave it as a reference of its kind. -/
def bind (context : Context σ) : Binder (Except ResolutionError) := fun kind name occurrence =>
  match context.schema with
  | none => .ok (.reference kind name none)
  | some schema =>
    match context.target schema kind name occurrence.origin with
    | .ok target => .ok (.bound target none)
    | .error e => .error e

/-- The bound and checked tree of a parsed formula. -/
def resolve (context : Context σ) (tree : Expr) : Except ResolutionError Expr :=
  QueryFormula.resolve context.bind context.mode.expected (normalForm tree)

end Context

/-- The tree of a source, as it is parsed. -/
def readTree (source : String) : Except CompileError Expr :=
  let tokenized := tokenize source
  match tokenized.error with
  | some e => .error (.lex e)
  | none => (parse source tokenized.tokens).mapError .parse

/-- The clause tree of a source. -/
def compile [Lookup σ] (context : Context σ) (source : String) : Except CompileError Expr := do
  let tree ← readTree source
  let bound ← (context.resolve tree).mapError .resolution
  pure (compareConditions bound)

end QueryFormula
