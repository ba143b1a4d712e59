import QueryFormula.Proofs.Grammar.RawTree
import QueryFormula.Proofs.Resolution.Checked
import QueryFormula.Proofs.Resolution.Comparison

/-!
# What is compiled with a schema is checked

A compiled formula holds no unbound name, and its clauses are clauses of the
catalog with operands that their signatures admit, wherever the catalog governs
it.  A spare operand is compiled as it is written: `compile_spare_operand` shows
an unbound name in one.
-/

namespace QueryFormula

open QueryFormula.Expr

/-- With a schema every name is bound. -/
theorem binds_of_schema {σ : Type} [Lookup σ] {context : Context σ} {schema : σ}
    (h : context.schema = some schema) : Binds context.bind := by
  intro kind name occurrence r hr
  rw [Context.bind, h] at hr
  dsimp only at hr
  cases htarget : context.target schema kind name occurrence.origin with
  | error e =>
      rw [htarget] at hr
      cases hr
  | ok target =>
      rw [htarget] at hr
      cases hr
      exact ⟨target, none, rfl⟩

/-- **What is compiled with a schema is checked**, but for what lies in spare
operands. -/
theorem isChecked_of_compile {σ : Type} [Lookup σ] {context : Context σ} {schema : σ}
    {source : String} {e : Expr} (hschema : context.schema = some schema)
    (h : compile context source = .ok e) :
    ∀ x ∈ e.governed, x.IsChecked := by
  obtain ⟨tree, bound, hread, hresolve, rfl⟩ := compile_eq_ok_iff.mp h
  obtain ⟨harranged, hplain⟩ := arranged_normalForm (raw_of_readTree hread)
  have hready := ready_of_arranged (binds_of_schema hschema) harranged
  exact checked_compareConditions (hready.resolvable hplain _ _ hresolve).1

/-- Filters over one table with two columns. -/
def ordersFilter : Context where
  mode := .boolean
  stage := 0
  ownName := none
  schema := some
    { database := ⟨none, none⟩
      stages := [
        { fields := [⟨1, "Total", none, none, "type/Float", false⟩,
            ⟨2, "Created", none, none, "type/DateTime", false⟩]
          metrics := []
          segments := [] }] }

/-- A comparison and a conditional, checked. -/
theorem isChecked_case_filter :
    ∃ e, compile ordersFilter "case([Total] > 1, [Created] < \"2024\", [Total] = 2)" = .ok e ∧
      ∀ x ∈ e.governed, x.IsChecked := by
  obtain ⟨e, he, -⟩ := exists_ok_of_any
    (show (compile ordersFilter
      "case([Total] > 1, [Created] < \"2024\", [Total] = 2)").toOption.any (fun _ => true) = true
      by decide +kernel)
  exact ⟨e, he, isChecked_of_compile rfl he⟩

/-- The node is an unbound name. -/
def Expr.isUnbound : Expr → Bool
  | .reference _ _ _ => true
  | _ => false

/-- The node is a clause of fixed arity with more operands than it declares, and
one more where options are taken. -/
def Expr.isOverfull : Expr → Bool
  | .clause op operands _ => (signature? op).any fun s => !s.variadic &&
      (if s.takesOptions then s.parameters.length + 1 else s.parameters.length) < operands.length
  | _ => false

/-- A spare operand has its place for the sake of options, but any other is copied there as
well, and what the schema does not hold stays unbound in it.  An `offset` has an options object
though it takes none, and options may stand behind a spare operand. -/
theorem compile_spare_operand :
    (∃ e, compile ordersFilter "interval([Created], 1, \"day\", [Bogus])" = .ok e ∧
      e.nodes.any Expr.isUnbound = true) ∧
    (∃ e, compile ordersFilter "Offset([Total], 1) > 0" = .ok e ∧
      e.nodes.any Expr.isOverfull = true) ∧
    (∃ e, compile ordersFilter
        "interval([Created], 1, \"day\", \"week\", \"include-current\")" = .ok e ∧
      e.nodes.any Expr.isOverfull = true) :=
  ⟨exists_ok_of_any (by decide +kernel), exists_ok_of_any (by decide +kernel),
    exists_ok_of_any (by decide +kernel)⟩

end QueryFormula
