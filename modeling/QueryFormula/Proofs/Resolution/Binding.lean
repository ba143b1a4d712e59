import QueryFormula.Compile
import QueryFormula.Proofs.Resolution.Success

/-!
# What names are bound to

`Context.bind_cases` and `Context.target_cases` say all that binding a name can do: leave
the name unbound where there is no schema, or find a saved metric, a saved filter or a
column in it, as the kind of reference asks.
-/

namespace QueryFormula

namespace Schema

variable {schema : Schema} {stage : Nat} {name : String} {target : BoundRef}

theorem metric_of_metric? (h : schema.metric? stage name = some target) :
    ∃ id, target = .metric id := by
  obtain ⟨s, -, hfound⟩ := Option.bind_eq_some_iff.mp h
  obtain ⟨saved, -, rfl⟩ := Option.map_eq_some_iff.mp hfound
  exact ⟨saved.id, rfl⟩

theorem segment_of_segment? (h : schema.segment? stage name = some target) :
    ∃ id, target = .segment id := by
  obtain ⟨s, -, hfound⟩ := Option.bind_eq_some_iff.mp h
  obtain ⟨saved, -, rfl⟩ := Option.map_eq_some_iff.mp hfound
  exact ⟨saved.id, rfl⟩

end Schema

namespace Context

/-- A column of a file's schema is found by a name that is not hidden, and it is the first of
its stage that answers to the name. -/
theorem field?_eq_some_iff {context : Context} {schema : Schema} {name : String}
    {target : BoundRef} :
    context.field? schema name = some target ↔
      context.isOwnName name = false ∧ ∃ stage column,
        schema.stages[context.stage]? = some stage ∧
        stage.fields.find? (·.answersTo name) = some column ∧ column.target = target := by
  rw [field?]
  cases context.isOwnName name with
  | true => simp
  | false => simp [Lookup.field?, Schema.field?, Option.bind_eq_some_iff, Option.map_eq_some_iff]

variable {σ : Type} [Lookup σ] {context : Context σ} {schema : σ} {kind : NameKind}
  {name : String} {o : Option Span} {target : BoundRef}

/-- **What a name may be bound to,** if it is bound. -/
theorem target_cases (h : context.target schema kind name o = .ok target) :
    (kind = .metric ∧ Lookup.metric? schema context.stage name = some target) ∨
    (kind = .segment ∧ Lookup.segment? schema context.stage name = some target) ∨
    (kind ≠ .metric ∧ context.field? schema name = some target ∧
      (kind = .segment → target.isBoolean = true)) := by
  unfold Context.target at h
  cases kind with
  | metric =>
      dsimp only at h
      split at h
      · rename_i hmetric
        cases h
        exact .inl ⟨rfl, hmetric⟩
      · split at h <;> cases h
  | segment =>
      dsimp only at h
      split at h
      · rename_i hfound
        cases h
        rcases Option.or_eq_some_iff.mp hfound with hsegment | ⟨-, hcolumn⟩
        · exact .inr (.inl ⟨rfl, hsegment⟩)
        · obtain ⟨hcolumn, hboolean⟩ := Option.filter_eq_some_iff.mp hcolumn
          exact .inr (.inr ⟨NameKind.noConfusion, hcolumn, fun _ => hboolean⟩)
      · cases h
  | dimension =>
      dsimp only at h
      split at h
      · rename_i hcolumn
        cases h
        exact .inr (.inr ⟨NameKind.noConfusion, hcolumn, NameKind.noConfusion⟩)
      · cases h

/-- **What a binder makes of a name.** -/
theorem bind_cases {occurrence : Occurrence} {r : Expr}
    (h : context.bind kind name occurrence = .ok r) :
    (context.schema = none ∧ r = .reference kind name none) ∨
    ∃ schema target, context.schema = some schema ∧
      context.target schema kind name occurrence.origin = .ok target ∧
      r = .bound target none := by
  unfold Context.bind at h
  split at h
  · rename_i hschema
    cases h
    exact .inl ⟨hschema, rfl⟩
  · rename_i schema hschema
    split at h
    · rename_i target htarget
      cases h
      exact .inr ⟨schema, target, hschema, htarget, rfl⟩
    · cases h

/-- A context answers with names and with targets of its schema. -/
theorem answersNames_bind (context : Context σ) : AnswersNames context.bind := by
  intro kind name occurrence r hr
  rcases bind_cases hr with ⟨-, rfl⟩ | ⟨schema, target, -, -, rfl⟩
  · exact .inl ⟨kind, name, none, rfl⟩
  · exact .inr ⟨target, none, rfl⟩

end Context

end QueryFormula
