import QueryFormula.Proofs.Expr.Rearrange
import QueryFormula.Proofs.Resolution.Binding
import QueryFormula.Proofs.Token.BracketedName

/-!
# Every name of a schema can be written

A name in brackets compiles to whatever the name is bound to (`compile_quote_of_bind`).
The names of a schema are looked up from the first entry of a stage on, so an entry is found
by its own name unless an earlier one answers to that name too.  Hence `compile_quote`:
whatever characters a schema uses in its names, every column, metric and saved filter has a
formula that means it and nothing else.
-/

namespace QueryFormula

open Bracketed

/-- A name in brackets compiles to what the name is bound to. -/
theorem compile_quote_of_bind {σ : Type} [Lookup σ] {context : Context σ} {n : String}
    {target : BoundRef}
    (h : context.bind (NameKind.ofType context.mode.expected) n
      ⟨.dimension, some ⟨0, byteLength (quote n).toList⟩⟩ = .ok (.bound target none)) :
    compile context (quote n) =
      .ok (.bound target (some ⟨0, byteLength (quote n).toList⟩)) := by
  have hresolve : context.resolve (.reference .dimension n
      (some ⟨0, byteLength (quote n).toList⟩)) =
        .ok (.bound target (some ⟨0, byteLength (quote n).toList⟩)) :=
    bind_eq_ok_iff.mpr ⟨_, h, rfl⟩
  exact compile_eq_ok_iff.mpr
    ⟨_, _, readTree_quote n, hresolve, Expr.bottomUp_bound _ target _⟩

/-! ### Names that are looked up -/

/-- Names are the same as themselves. -/
theorem sameName_self (name : String) : sameName name name = true :=
  beq_self_eq_true _

/-- A column answers to its label. -/
theorem Field.answersTo_label (column : Field) : column.answersTo column.label = true := by
  rw [answersTo, sameName_self, Bool.true_or, Bool.true_or]

section Names

variable {schema : Schema} {number : Nat} {stage : Stage}

/-- The first entry of a list that meets a condition is found. -/
theorem find?_first {α : Type} {p : α → Bool} {before after : List α} {x : α}
    (hfirst : ∀ y ∈ before, p y = false) (hx : p x = true) :
    (before ++ x :: after).find? p = some x :=
  List.find?_eq_some_iff_append.mpr
    ⟨hx, before, after, rfl, fun y hy => by rw [hfirst y hy]; rfl⟩

/-- A column is found by its label, if no earlier one answers to that. -/
theorem Schema.field?_label (h : schema.stages[number]? = some stage)
    {before after : List Field} {column : Field}
    (hfields : stage.fields = before ++ column :: after)
    (hfirst : ∀ earlier ∈ before, earlier.answersTo column.label = false) :
    schema.field? number column.label = some column.target := by
  rw [Schema.field?, h, Option.bind_some, hfields, find?_first hfirst column.answersTo_label]
  rfl

/-- A metric is found by its name, if no earlier one has that name. -/
theorem Schema.metric?_name (h : schema.stages[number]? = some stage)
    {before after : List Saved} {metric : Saved}
    (hmetrics : stage.metrics = before ++ metric :: after)
    (hfirst : ∀ earlier ∈ before, sameName earlier.name metric.name = false) :
    schema.metric? number metric.name = some (.metric metric.id) := by
  rw [Schema.metric?, h, Option.bind_some, hmetrics, find?_first hfirst (sameName_self _)]
  rfl

/-- A saved filter is found by its name, if no earlier one has that name. -/
theorem Schema.segment?_name (h : schema.stages[number]? = some stage)
    {before after : List Saved} {segment : Saved}
    (hsegments : stage.segments = before ++ segment :: after)
    (hfirst : ∀ earlier ∈ before, sameName earlier.name segment.name = false) :
    schema.segment? number segment.name = some (.segment segment.id) := by
  rw [Schema.segment?, h, Option.bind_some, hsegments, find?_first hfirst (sameName_self _)]
  rfl

end Names

/-! ### Names that are written -/

/-- **Every name of a schema can be written.**  In brackets, a column's label compiles to the
column as a custom column, a metric's name to the metric as an aggregation, and a saved
filter's name to that as a filter, as long as no earlier entry of the stage takes the name.
Only columns are ever hidden, from the formula of the column of that name. -/
theorem compile_quote {schema : Schema} {number : Nat} {stage : Stage}
    (h : schema.stages[number]? = some stage) :
    (∀ before column after, stage.fields = before ++ column :: after →
      (∀ earlier ∈ before, earlier.answersTo column.label = false) →
      compile ⟨.expression, number, none, some schema⟩ (quote column.label) =
        .ok (.bound column.target (some ⟨0, byteLength (quote column.label).toList⟩))) ∧
    (∀ ownName before metric after, stage.metrics = before ++ metric :: after →
      (∀ earlier ∈ before, sameName earlier.name metric.name = false) →
      compile ⟨.aggregation, number, ownName, some schema⟩ (quote metric.name) =
        .ok (.bound (.metric metric.id) (some ⟨0, byteLength (quote metric.name).toList⟩))) ∧
    (∀ ownName before segment after, stage.segments = before ++ segment :: after →
      (∀ earlier ∈ before, sameName earlier.name segment.name = false) →
      compile ⟨.boolean, number, ownName, some schema⟩ (quote segment.name) =
        .ok (.bound (.segment segment.id)
          (some ⟨0, byteLength (quote segment.name).toList⟩))) := by
  refine ⟨fun before column after hfields hfirst => ?_,
    fun ownName before metric after hmetrics hfirst => ?_,
    fun ownName before segment after hsegments hfirst => ?_⟩
  · have hfound := Schema.field?_label h hfields hfirst
    have hvisible : Context.field? ⟨.expression, number, none, some schema⟩ schema column.label =
        some column.target := hfound
    refine compile_quote_of_bind ?_
    change Context.bind _ .dimension _ _ = _
    simp only [Context.bind, Context.target, hvisible]
  · have hfound : Lookup.metric? schema number metric.name = some (.metric metric.id) :=
      Schema.metric?_name h hmetrics hfirst
    refine compile_quote_of_bind ?_
    change Context.bind _ .metric _ _ = _
    simp only [Context.bind, Context.target, hfound]
  · have hfound : Lookup.segment? schema number segment.name = some (.segment segment.id) :=
      Schema.segment?_name h hsegments hfirst
    refine compile_quote_of_bind ?_
    change Context.bind _ .segment _ _ = _
    simp only [Context.bind, Context.target, hfound, Option.some_or]

/-- A table with a column of no name, and names of brackets, a backslash and letters of other
scripts. -/
def oddNames : Schema :=
  { database := ⟨none, none⟩
    stages := [
      { fields := [⟨1, "", none, none, "type/Text", false⟩,
          ⟨2, "TOTAL", some "[Net] \\", some "Orders", "type/Float", false⟩]
        metrics := [⟨3, "Größe ]"⟩]
        segments := [⟨4, "A → B"⟩] }] }

/-- Each of them has its formula. -/
theorem compile_quote_oddNames :
    quote "[Net] \\" = "[\\[Net\\] \\\\]" ∧
    compile ⟨.expression, 0, none, some oddNames⟩ (quote "") =
      .ok (.bound (.field 1 "type/Text") (some ⟨0, byteLength (quote "").toList⟩)) ∧
    compile ⟨.expression, 0, none, some oddNames⟩ (quote "[Net] \\") =
      .ok (.bound (.field 2 "type/Float") (some ⟨0, byteLength (quote "[Net] \\").toList⟩)) ∧
    compile ⟨.aggregation, 0, none, some oddNames⟩ (quote "Größe ]") =
      .ok (.bound (.metric 3) (some ⟨0, byteLength (quote "Größe ]").toList⟩)) ∧
    compile ⟨.boolean, 0, none, some oddNames⟩ (quote "A → B") =
      .ok (.bound (.segment 4) (some ⟨0, byteLength (quote "A → B").toList⟩)) := by
  obtain ⟨hfields, hmetrics, hsegments⟩ :=
    compile_quote (show oddNames.stages[0]? = some _ from rfl)
  have hunnamed := hfields [] ⟨1, "", none, none, "type/Text", false⟩ _ rfl
    fun _ h => absurd h List.not_mem_nil
  have hnet := hfields [_] ⟨2, "TOTAL", some "[Net] \\", some "Orders", "type/Float", false⟩ [] rfl
    (by decide +kernel)
  have hmetric := hmetrics none [] ⟨3, "Größe ]"⟩ [] rfl fun _ h => absurd h List.not_mem_nil
  have hsegment := hsegments none [] ⟨4, "A → B"⟩ [] rfl fun _ h => absurd h List.not_mem_nil
  exact ⟨by decide +kernel, hunnamed, hnet, hmetric, hsegment⟩

end QueryFormula
