import QueryFormula.Proofs.Expr.Value
import QueryFormula.Proofs.NormalForm.Negation

/-!
# What folding negations means

Where `not` undoes itself and each test with an opposite is the `not` of its
opposite (`Algebra.Negates`), folding negations changes the value of no tree,
however many `not` stand on each other and whatever stands below them
(`value_foldNegations`).  Nothing else is asked of the meaning of a clause.
-/

namespace QueryFormula

open QueryFormula.Expr

universe u

/-- The meaning of `not` and of the tests that are each other's negation. -/
structure Algebra.Negates {α : Type u} (A : Algebra α) : Prop where
  involutive : ∀ v, A.clause "not" [A.clause "not" [v]] = v
  contains : ∀ vs, A.clause "does-not-contain" vs = A.clause "not" [A.clause "contains" vs]
  isNull : ∀ vs, A.clause "not-null" vs = A.clause "not" [A.clause "is-null" vs]
  isEmpty : ∀ vs, A.clause "not-empty" vs = A.clause "not" [A.clause "is-empty" vs]

variable {α : Type u} {A : Algebra α}

/-- Being the negation of something goes both ways. -/
theorem Algebra.Negates.symm (hA : A.Negates) {op opposite : String} {vs : List α}
    (h : A.clause opposite vs = A.clause "not" [A.clause op vs]) :
    A.clause op vs = A.clause "not" [A.clause opposite vs] := by
  rw [h, hA.involutive]

/-- **Opposites.**  The operator that a `not` turns into is worth that `not`. -/
theorem Algebra.Negates.clause_opposite (hA : A.Negates) {op opposite : String}
    (h : opposite? op = some opposite) (vs : List α) :
    A.clause opposite vs = A.clause "not" [A.clause op vs] := by
  unfold opposite? at h
  split at h <;> cases h
  · exact hA.contains vs
  · exact hA.isNull vs
  · exact hA.isEmpty vs
  · exact hA.symm (hA.contains vs)
  · exact hA.symm (hA.isNull vs)
  · exact hA.symm (hA.isEmpty vs)

/-- Folding one negation changes no value. -/
theorem value_shortenNegation (hA : A.Negates) (op : String) (xs : List Expr)
    (o : Option Span) :
    (shortenNegation op xs o).value A = A.clause op (xs.map (value A)) := by
  rcases shortenNegation_cases op xs o with
    ⟨-, hstep⟩ | ⟨x, p, rfl, rfl, hstep⟩ | ⟨f, opposite, ys, p, rfl, rfl, hopposite, hstep⟩
  · rw [hstep, value_clause]
  · rw [hstep, List.map_singleton, value_clause, List.map_singleton, hA.involutive]
  · rw [hstep, value_clause, hA.clause_opposite hopposite, List.map_singleton, value_clause]

/-- **Folding negations keeps the meaning**, whatever the values are and whatever
the other clauses mean. -/
theorem value_foldNegations (hA : A.Negates) (e : Expr) :
    (foldNegations e).value A = e.value A := by
  induction e with
  | literal v o => rw [foldNegations, bottomUp_literal]
  | reference k n o => rw [foldNegations, bottomUp_reference]
  | bound t o => rw [foldNegations, bottomUp_bound]
  | clause op xs o ih =>
      have hxs : (xs.map foldNegations).map (value A) = xs.map (value A) := by
        rw [List.map_map]
        exact List.map_congr_left ih
      calc (foldNegations (.clause op xs o)).value A
          = (shortenNegation op (xs.map foldNegations) o).value A := by
            rw [foldNegations, bottomUp_clause_adopt, value_adoptOrigin]
        _ = A.clause op ((xs.map foldNegations).map (value A)) :=
            value_shortenNegation hA op _ o
        _ = (Expr.clause op xs o).value A := by rw [hxs, value_clause]
  | options es o ih =>
      rw [foldNegations, bottomUp_options, value_options, value_options, List.map_map]
      exact congrArg A.options (List.map_congr_left fun e he => Prod.ext rfl (ih e he))
  | pairs ps o ih =>
      rw [foldNegations, bottomUp_pairs, value_pairs, value_pairs, List.map_map]
      exact congrArg A.pairs
        (List.map_congr_left fun p hp => Prod.ext (ih p hp).1 (ih p hp).2)

/-! ### Truth values -/

/-- A clause over truth values: a name is worth whether it has a value, and a test
for null looks for operands without one. -/
def truthOfClause : String → List Bool → Bool
  | "not", [v] => !v
  | "is-null", vs | "is-empty", vs | "does-not-contain", vs => !vs.all id
  | _, vs => vs.all id

/-- Truth values, where only the names in `present` have a value. -/
def truthAlgebra (present : List String) : Algebra Bool where
  literal _ := true
  reference _ name := present.contains name
  bound _ := true
  clause := truthOfClause
  options entries := entries.all Prod.snd
  pairs cases := cases.all fun p => p.1 && p.2

theorem negates_truthAlgebra (present : List String) : (truthAlgebra present).Negates where
  involutive v := Bool.not_not v
  contains vs := by simp [truthAlgebra, truthOfClause]
  isNull vs := by simp [truthAlgebra, truthOfClause]
  isEmpty vs := by simp [truthAlgebra, truthOfClause]

/-- Three `not` around a test for null are one, and so is the test they leave. -/
theorem value_three_nots :
    (truthAlgebra ["A"]).Negates ∧
    let test := Expr.clause "is-null" [.reference .dimension "A" none] none
    let tree := Expr.clause "not" [.clause "not" [.clause "not" [test] none] none] none
    foldNegations tree = .clause "not-null" [.reference .dimension "A" none] none ∧
    (foldNegations tree).value (truthAlgebra ["A"]) = tree.value (truthAlgebra ["A"]) :=
  have hA := negates_truthAlgebra ["A"]
  ⟨hA, rfl, value_foldNegations hA _⟩

end QueryFormula
