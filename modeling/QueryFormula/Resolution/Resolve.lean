import QueryFormula.Catalog.Signature
import QueryFormula.Expr.Basic
import QueryFormula.Resolution.Error

/-!
# Binding names and checking types

`resolve` walks a tree from the root with the type that each place expects.  It
holds every clause against the catalog and every literal against its place, and
hands each name to a binder, together with the kind of reference that the place
wants.  Names, literals and clauses are met from left to right; the first error
ends the walk.

Options are left alone, but for the default of a grouped conditional.
-/

namespace QueryFormula

/-- The kind of reference that a name is where a type is expected. -/
def NameKind.ofType : ValueType → NameKind
  | .aggregation => .metric
  | .boolean => .segment
  | _ => .dimension

/-- The type of a literal. -/
def Literal.type : Literal → ValueType
  | text _ => .string
  | number _ | float _ => .number
  | boolean _ => .boolean

/-- The type that an operand is held against, where its clause is expected to be
of type `expected`.  Numbers and scalars below a clause that does not aggregate
still have to be aggregated where an aggregation is expected. -/
def operandType (s : Signature) (declared expected : ValueType) : ValueType :=
  match declared with
  | .any => expected
  | .number | .expression =>
    if expected = .aggregation ∧ s.kind ≠ .aggregation then .aggregation else declared
  | _ => declared

/-- The operands of a clause that are no options. -/
def positionalCount (operands : List Expr) : Nat :=
  operands.countP (!·.isOptions)

theorem positionalCount_options {x : Expr} {xs : List Expr} (hx : x.isOptions = true) :
    positionalCount (x :: xs) = positionalCount xs := by
  simp [positionalCount, hx]

theorem positionalCount_value {x : Expr} {xs : List Expr} (hx : x.isOptions = false) :
    positionalCount (x :: xs) = positionalCount xs + 1 := by
  simp [positionalCount, hx]

/-- Positions behind a value are counted from the next one on. -/
theorem add_positionalCount_value {x : Expr} {xs : List Expr} (hx : x.isOptions = false)
    (position : Nat) :
    position + positionalCount (x :: xs) = position + 1 + positionalCount xs := by
  rw [positionalCount_value hx]
  omega

/-- What is wrong with the number of operands.  A clause with options may hold
one operand more than it declares: a shorthand that stands for them. -/
def arityFault? (s : Signature) (operands : List Expr) : Option Arity :=
  let count := positionalCount operands
  let declared := s.parameters.length
  if s.variadic then if count < declared then some (.atLeast declared) else none
  else
    let most := if s.takesOptions then declared + 1 else declared
    if count < declared || most < count then some (.exactly declared) else none

/-- What a name is where it stands: the reference that a binder is asked about, its name
apart. -/
structure Occurrence where
  /-- The kind that the tree gives the name, whatever its place asks for. -/
  kind : NameKind
  origin : Option Span
deriving DecidableEq, Repr

/-- Where only the place matters, an occurrence stands for it. -/
instance : Coe Occurrence (Option Span) := ⟨Occurrence.origin⟩

/-- What a binder does: find the target of a name, or refuse it.  It is told the kind of
reference that the place of the name asks for. -/
abbrev Binder (m : Type → Type) :=
  (kind : NameKind) → (name : String) → (occurrence : Occurrence) → m Expr

variable {m : Type → Type} [Monad m] [MonadExceptOf ResolutionError m]

mutual

/-- Bind the names of a tree of the expected type. -/
def resolve (bind : Binder m) (expected : ValueType) : Expr → m Expr
  | .reference kind name origin => do
    let target ← bind (NameKind.ofType expected) name ⟨kind, origin⟩
    pure (target.adoptOrigin origin)
  | .literal value origin =>
    if expected.accepts value.type then pure (.literal value origin)
    else throw (ResolutionError.typeMismatch expected (.literal value) origin)
  | .clause op operands origin =>
    match signature? op with
    | none => throw (ResolutionError.unknownFunction op origin)
    | some s =>
      if !expected.accepts s.kind then
        throw (ResolutionError.typeMismatch expected (.call s.displayName s.kind) origin)
      else
        match isConditional op, operands with
        | true, [.pairs cases place] =>
          if cases.isEmpty then
            throw (ResolutionError.wrongArity s.displayName (.atLeast 2) origin)
          else do
            let cases ← resolveCases bind expected cases
            pure (.clause op [.pairs cases place] origin)
        | true, [.pairs cases place, .options entries spot] =>
          if cases.isEmpty then
            throw (ResolutionError.wrongArity s.displayName (.atLeast 2) origin)
          else do
            let cases ← resolveCases bind expected cases
            let entries ← resolveDefault bind expected entries
            pure (.clause op [.pairs cases place, .options entries spot] origin)
        | _, operands =>
          match arityFault? s operands with
          | some arity => throw (ResolutionError.wrongArity s.displayName arity origin)
          | none => do
            let operands ← resolveOperands bind s expected 0 operands
            pure (.clause op operands origin)
  | e => pure e

/-- Resolve the operands of a clause from a position on. -/
def resolveOperands (bind : Binder m) (s : Signature) (expected : ValueType) (position : Nat) :
    List Expr → m (List Expr)
  | [] => pure []
  | e :: rest =>
    if e.isOptions then do
      let rest ← resolveOperands bind s expected position rest
      pure (e :: rest)
    else
      match s.parameter? position with
      | some declared => do
        let first ← resolve bind (operandType s declared expected) e
        let rest ← resolveOperands bind s expected (position + 1) rest
        pure (first :: rest)
      | none => do
        let rest ← resolveOperands bind s expected (position + 1) rest
        pure (e :: rest)

/-- Resolve tests as conditions and values as the conditional itself. -/
def resolveCases (bind : Binder m) (expected : ValueType) :
    List (Expr × Expr) → m (List (Expr × Expr))
  | [] => pure []
  | (test, value) :: rest => do
    let test ← resolve bind .boolean test
    let value ← resolve bind expected value
    let rest ← resolveCases bind expected rest
    pure ((test, value) :: rest)

/-- Resolve the default of a conditional. -/
def resolveDefault (bind : Binder m) (expected : ValueType) :
    List (String × Expr) → m (List (String × Expr))
  | [] => pure []
  | (key, value) :: rest =>
    if key = "default" then do
      let value ← resolve bind expected value
      pure ((key, value) :: rest)
    else do
      let rest ← resolveDefault bind expected rest
      pure ((key, value) :: rest)

end

end QueryFormula
