import QueryFormula.Proofs.Grammar.Respelling
import QueryFormula.Proofs.Resolution.Calls

/-!
# Formulas in another spelling

A formula compiles to one tree in every spelling of its keywords, truth values, exponents and
functions, if all that is called is known as a function (`compile_recased`).  A called name
that no function has keeps its text; in one spelling it may be the name of a clause, and in
another not.
-/

namespace QueryFormula

/-- Sources of which the grammar sees the same are read to the same trees. -/
theorem readTree_of_views {source source' : String} {tree : Expr}
    (hviews : views (tokenize source).tokens = views (tokenize source').tokens)
    (herror' : (tokenize source').error = none) (h : readTree source = .ok tree) :
    readTree source' = .ok tree :=
  readTree_eq_ok_iff.mpr ⟨herror', parse_of_views (readTree_eq_ok_iff.mp h).2 hviews⟩

/-- **Formulas in another spelling** compile to the same tree.  Else a called name is written
in two ways that is that of no function, but of a clause, or stands in a spare operand. -/
theorem compile_recased {σ : Type} [Lookup σ] {context : Context σ} {source source' : String}
    (h : Recased source source') (herror : (tokenize source).error = none) (e : Expr) :
    (compile context source = .ok e ↔ compile context source' = .ok e) ∨
      ∃ name name', Miscalled (tokenize source).tokens (tokenize source').tokens name name' ∧
        ((signature? name.text).isSome = true ∨ (signature? name'.text).isSome = true ∨
          ∃ x ∈ e.spared, x.HasCall name ∨ x.HasCall name') := by
  obtain ⟨herror', hrespelled⟩ := respelled_of_recased h herror
  rcases hrespelled.views_eq with hviews | ⟨name, name', hname⟩
  · left
    have hread : ∀ tree, readTree source = .ok tree ↔ readTree source' = .ok tree := fun tree =>
      ⟨readTree_of_views hviews herror', readTree_of_views hviews.symm herror⟩
    simp only [compile_eq_ok_iff, hread]
  · by_cases hcompile : compile context source = .ok e
    · right
      refine ⟨name, name', hname, ?_⟩
      rcases clause_or_spared_of_compile hcompile hname.called hname.noFunction with
        hclause | ⟨x, hx, hcall⟩
      · exact .inl hclause
      · exact .inr (.inr ⟨x, hx, .inl hcall⟩)
    by_cases hcompile' : compile context source' = .ok e
    · right
      refine ⟨name, name', hname, ?_⟩
      rcases clause_or_spared_of_compile hcompile' hname.called' hname.noFunction' with
        hclause | ⟨x, hx, hcall⟩
      · exact .inr (.inl hclause)
      · exact .inr (.inr ⟨x, hx, .inr hcall⟩)
    · exact .inl (iff_of_false hcompile hcompile')

/-- A sum with a keyword, a truth value and an exponent in small letters. -/
def smallSum : String :=
  "Sum(case([Total] > 1e2 and not false, [Total], 0))"

/-- The same sum in capitals. -/
def capitalSum : String :=
  "SUM(CASE([Total] > 1E2 AND NOT FALSE, [Total], 0))"

/-- Where functions are called, capitals make no difference. -/
theorem compile_recased_sum :
    Recased smallSum capitalSum ∧ (tokenize smallSum).error = none ∧
      ∃ e, compile ordersAggregation smallSum = .ok e ∧
        compile ordersAggregation capitalSum = .ok e := by
  obtain ⟨e, he, -⟩ := exists_ok_of_any
    (show (compile ordersAggregation smallSum).toOption.any (fun _ => true) = true by
      decide +kernel)
  have hrecased : Recased smallSum capitalSum := by
    decide +kernel
  have herror : (tokenize smallSum).error = none := by
    decide +kernel
  have hfunctions : ∀ name ∈ calledNames (tokenize smallSum).tokens,
      clauseNamed? name.text ≠ none := by
    decide +kernel
  have hiff : compile ordersAggregation smallSum = .ok e ↔
      compile ordersAggregation capitalSum = .ok e := by
    refine (compile_recased hrecased herror e).resolve_right ?_
    rintro ⟨name, name', hname, -⟩
    exact absurd hname.noFunction (hfunctions name hname.called)
  exact ⟨hrecased, herror, e, he, hiff.mp he⟩

/-- The name of a clause is refused in capitals. -/
theorem compile_average_capitals :
    Recased "avg([Total])" "AVG([Total])" ∧
      (tokenize "avg([Total])").error = none ∧ (tokenize "AVG([Total])").error = none ∧
      ∃ e, compile ordersAggregation "avg([Total])" = .ok e ∧
        compile ordersAggregation "AVG([Total])" ≠ .ok e := by
  obtain ⟨e, he, -⟩ := exists_ok_of_any
    (show (compile ordersAggregation "avg([Total])").toOption.any (fun _ => true) = true by
      decide +kernel)
  have hcapitals : (compile ordersAggregation "AVG([Total])").toOption = none := by
    decide +kernel
  refine ⟨by decide +kernel, by decide +kernel, by decide +kernel, e, he, fun hcompile => ?_⟩
  rw [hcompile] at hcapitals
  cases hcapitals

end QueryFormula
