import Mathlib.Logic.Relation
import QueryFormula.Proofs.Resolution.Binding
import QueryFormula.Proofs.Resolution.Compiled
import QueryFormula.Proofs.Resolution.TypedComparison

/-!
# Aggregation levels do not mix

Where a single value is expected, no aggregation fits and no saved metric, and
single values are expected everywhere below (`Expr.Typed.of_single`).  Where an
aggregation is expected, only a clause that aggregates changes that on the way down;
so below it everything is a single value.

`aggregation_levels` says so of all compiled formulas, with or without a schema.
-/

namespace QueryFormula

open QueryFormula.Expr Relation

namespace Expr

/-- The node is a reference to a saved metric, bound or not. -/
def isMetric : Expr → Bool
  | reference kind _ _ => kind == .metric
  | bound target _ => target.isMetric
  | _ => false

/-- The node is a clause that aggregates. -/
def aggregates : Expr → Bool
  | clause op _ _ => (signature? op).any (·.kind == .aggregation)
  | _ => false

/-- Checking goes on from the first node to the second. -/
def ChecksNext (e x : Expr) : Prop :=
  ∃ demand, Checks demand e x

end Expr

/-- A type of single values: no aggregation, and not left to the context. -/
def ValueType.IsSingle (type : ValueType) : Prop :=
  type ≠ .aggregation ∧ type ≠ .any

/-! ### What the catalog declares -/

/-- No argument is declared to be aggregated, and aggregating clauses declare the types
of all of theirs. -/
theorem declared_ne_aggregation {op : String} {s : Signature} {position : Nat}
    {declared : ValueType} (hs : signature? op = some s)
    (h : s.parameter? position = some declared) :
    declared ≠ .aggregation ∧ (s.kind = .aggregation → declared ≠ .any) := by
  have hrows : ∀ s ∈ catalog, ∀ declared ∈ s.parameters,
      declared ≠ .aggregation ∧ (s.kind = .aggregation → declared ≠ .any) := by
    decide
  exact of_signature? hrows hs declared (mem_parameters_of_parameter? h)

/-- Conditionals do not aggregate. -/
theorem kind_of_isConditional {op : String} {s : Signature} (hs : signature? op = some s)
    (hcond : isConditional op = true) : s.kind = .expression := by
  have hrows : ∀ s ∈ catalog, isConditional s.name = true → s.kind = .expression := by
    decide
  exact of_signature? hrows hs ((mem_catalog_of_signature? hs).2 ▸ hcond)

/-- What is expected of an operand: the same as of its clause if that is left open; an
aggregation still, if a clause that does not aggregate is to be one and wants a number
or any scalar; else what is declared. -/
theorem operandType_cases (s : Signature) (declared expected : ValueType) :
    (declared = .any ∧ operandType s declared expected = expected) ∨
    (expected = .aggregation ∧ s.kind ≠ .aggregation ∧
      operandType s declared expected = .aggregation) ∨
    (declared ≠ .any ∧ operandType s declared expected = declared ∧
      (expected = .aggregation → s.kind ≠ .aggregation →
        declared ≠ .number ∧ declared ≠ .expression)) := by
  by_cases hkept : expected = .aggregation ∧ s.kind ≠ .aggregation
  · cases declared <;> simp [operandType, hkept]
  · cases declared <;> simp [operandType, hkept] <;> grind

/-! ### One step down -/

section Step

variable {demand : ValueType → ValueType} {e x : Expr} {expected : ValueType}

/-- Below a type that is not left open there is such a type. -/
theorem Expr.Checks.demand_ne_any (h : Checks demand e x) (hany : expected ≠ .any) :
    demand expected ≠ .any := by
  cases h with
  | @operand op before x after o s declared hs hvalue hdeclares =>
      rcases operandType_cases s declared expected with
        ⟨-, htype⟩ | ⟨-, -, htype⟩ | ⟨hdeclared, htype, -⟩
      · rwa [htype]
      · rw [htype]
        decide
      · rwa [htype]
  | test => exact ValueType.noConfusion
  | value => exact hany
  | default => exact hany

/-- Below a single value there are single values. -/
theorem Expr.Checks.isSingle (h : Checks demand e x) (hsingle : expected.IsSingle) :
    (demand expected).IsSingle := by
  refine ⟨?_, h.demand_ne_any hsingle.2⟩
  cases h with
  | @operand op before x after o s declared hs hvalue hdeclares =>
      have hdeclared := (declared_ne_aggregation hs hdeclares).1
      rcases operandType_cases s declared expected with
        ⟨-, htype⟩ | ⟨haggregation, -, -⟩ | ⟨-, htype, -⟩
      · rw [htype]
        exact hsingle.1
      · exact absurd haggregation hsingle.1
      · rwa [htype]
  | test => exact ValueType.noConfusion
  | value => exact hsingle.1
  | default => exact hsingle.1

/-- Below an aggregation there are single values. -/
theorem Expr.Checks.isSingle_of_aggregates (h : Checks demand e x) (he : e.aggregates = true)
    (hany : expected ≠ .any) : (demand expected).IsSingle := by
  refine ⟨?_, h.demand_ne_any hany⟩
  have hkind : ∀ op xs o, e = .clause op xs o → ∃ s, signature? op = some s ∧
      s.kind = .aggregation := by
    rintro op xs o rfl
    simpa [aggregates, Option.any_eq_true] using he
  have hgroups : ∀ op xs o, e = .clause op xs o → isConditional op = true → False := by
    intro op xs o heq hcond
    obtain ⟨s, hs, hs'⟩ := hkind op xs o heq
    cases hs'.symm.trans (kind_of_isConditional hs hcond)
  cases h with
  | @operand op before x after o s declared hs hvalue hdeclares =>
      obtain ⟨s', hs', haggregates⟩ := hkind _ _ _ rfl
      cases hs.symm.trans hs'
      obtain ⟨hdeclared, hclosed⟩ := declared_ne_aggregation hs hdeclares
      rcases operandType_cases s declared expected with
        ⟨hopen, -⟩ | ⟨-, hnot, -⟩ | ⟨-, htype, -⟩
      · exact absurd hopen (hclosed haggregates)
      · exact absurd haggregates hnot
      · rwa [htype]
  | test hcond => exact (hgroups _ _ _ rfl hcond).elim
  | value hcond => exact (hgroups _ _ _ rfl hcond).elim
  | default hcond => exact (hgroups _ _ _ rfl hcond).elim

/-- Nothing aggregated fits where a single value is expected. -/
theorem Expr.Fits.not_aggregated (h : Fits expected e) (hsingle : expected.IsSingle) :
    e.aggregates = false ∧ e.isMetric = false := by
  obtain ⟨haggregation, hany⟩ := hsingle
  cases e with
  | clause op xs o =>
      obtain ⟨s, hs, hkind⟩ := h
      refine ⟨?_, rfl⟩
      rw [aggregates, hs, Option.any_some, beq_eq_false_iff_ne]
      intro haggregates
      rw [haggregates] at hkind
      cases expected <;> contradiction
  | reference kind name o =>
      refine ⟨rfl, ?_⟩
      rw [isMetric, show kind = _ from h]
      cases expected <;> first | contradiction | rfl
  | bound target o =>
      refine ⟨rfl, Bool.eq_false_iff.mpr fun hmetric => ?_⟩
      have hkind := (show target.isMetric = true ↔ _ from h).mp hmetric
      cases expected <;> contradiction
  | _ => exact ⟨rfl, rfl⟩

end Step

/-! ### All the way down -/

/-- Where single values are expected at the top, they are expected wherever checking
goes. -/
theorem Expr.Typed.of_single {e x : Expr} {expected : ValueType} (h : Typed expected e)
    (hsingle : expected.IsSingle) (hx : ReflTransGen ChecksNext e x) :
    ∃ type, type.IsSingle ∧ Typed type x := by
  induction hx with
  | refl => exact ⟨expected, hsingle, h⟩
  | tail _ hstep ih =>
      obtain ⟨type, htype, hbefore⟩ := ih
      obtain ⟨demand, hchecks⟩ := hstep
      exact ⟨demand type, hchecks.isSingle htype, hbefore.of_checks hchecks⟩

/-- Wherever checking goes, some type is expected. -/
theorem Expr.Typed.of_ne_any {e x : Expr} {expected : ValueType} (h : Typed expected e)
    (hany : expected ≠ .any) (hx : ReflTransGen ChecksNext e x) :
    ∃ type, type ≠ .any ∧ Typed type x := by
  induction hx with
  | refl => exact ⟨expected, hany, h⟩
  | tail _ hstep ih =>
      obtain ⟨type, htype, hbefore⟩ := ih
      obtain ⟨demand, hchecks⟩ := hstep
      exact ⟨demand type, hchecks.demand_ne_any htype, hbefore.of_checks hchecks⟩

/-- Nothing that is checked below an aggregation is aggregated. -/
theorem Expr.Typed.below_aggregation {x y : Expr} {expected : ValueType} (h : Typed expected x)
    (hany : expected ≠ .any) (hx : x.aggregates = true) (hy : TransGen ChecksNext x y) :
    y.aggregates = false ∧ y.isMetric = false := by
  obtain ⟨z, ⟨demand, hchecks⟩, hrest⟩ := TransGen.head'_iff.mp hy
  have hsingle := hchecks.isSingle_of_aggregates hx hany
  obtain ⟨type, htype, htyped⟩ := (h.of_checks hchecks).of_single hsingle hrest
  exact htyped.fits.not_aggregated htype

/-! ### Compiled formulas -/

/-- A column is no metric. -/
theorem isMetric_of_field? {context : Context} {schema : Schema} {name : String}
    {target : BoundRef} (h : context.field? schema name = some target) :
    target.isMetric = false := by
  obtain ⟨-, stage, column, -, -, rfl⟩ := Context.field?_eq_some_iff.mp h
  unfold Field.target
  split <;> rfl

/-- A name is bound to a metric just when one is asked for. -/
theorem isMetric_target {context : Context} {schema : Schema} {kind : NameKind} {name : String}
    {span : Option Span} {target : BoundRef}
    (h : context.target schema kind name span = .ok target) :
    target.isMetric = true ↔ kind = .metric := by
  rcases Context.target_cases h with ⟨rfl, hmetric⟩ | ⟨rfl, hsegment⟩ | ⟨hkind, hcolumn, -⟩
  · obtain ⟨id, rfl⟩ := Schema.metric_of_metric? hmetric
    exact iff_of_true rfl rfl
  · obtain ⟨id, rfl⟩ := Schema.segment_of_segment? hsegment
    exact iff_of_false Bool.noConfusion NameKind.noConfusion
  · exact iff_of_false (Bool.eq_false_iff.mp (isMetric_of_field? hcolumn)) hkind

/-- A context answers a name with a reference of the kind that is asked for. -/
theorem answersKind_bind (context : Context) : AnswersKind context.bind := by
  intro kind name occurrence r hr
  rcases Context.bind_cases hr with ⟨-, rfl⟩ | ⟨schema, target, -, htarget, rfl⟩
  · exact .inl ⟨none, rfl⟩
  · exact .inr ⟨target, none, rfl, isMetric_target htarget⟩

/-- **A compiled formula is typed** at the type that its mode expects. -/
theorem typed_of_compile {context : Context} {source : String} {e : Expr}
    (h : compile context source = .ok e) : Typed context.mode.expected e := by
  obtain ⟨tree, bound, hread, hresolve, rfl⟩ := compile_eq_ok_iff.mp h
  have htyped := typed_of_resolve (answersKind_bind context) hresolve
    (unresolved_of_readTree hread)
  exact staysTyped bound _ htyped

/-- **Aggregation levels do not mix.**  Nothing that is checked in a column or a filter
is an aggregation or a saved metric; in an aggregation nothing that is checked below an
aggregating clause is. -/
theorem aggregation_levels {context : Context} {source : String} {e : Expr}
    (h : compile context source = .ok e) :
    (context.mode ≠ .aggregation → ∀ x, ReflTransGen ChecksNext e x →
      x.aggregates = false ∧ x.isMetric = false) ∧
    (context.mode = .aggregation → ∀ x y, ReflTransGen ChecksNext e x → x.aggregates = true →
      TransGen ChecksNext x y → y.aggregates = false ∧ y.isMetric = false) := by
  have htyped := typed_of_compile h
  constructor
  · intro hmode x hx
    have hsingle : context.mode.expected.IsSingle := by
      cases hcontext : context.mode with
      | aggregation => exact absurd hcontext hmode
      | _ => exact ⟨ValueType.noConfusion, ValueType.noConfusion⟩
    obtain ⟨type, htype, hxtyped⟩ := htyped.of_single hsingle hx
    exact hxtyped.fits.not_aggregated htype
  · intro hmode x y hx haggregates hy
    have hany : context.mode.expected ≠ .any := by
      rw [hmode]
      decide
    obtain ⟨type, htype, hxtyped⟩ := htyped.of_ne_any hany hx
    exact hxtyped.below_aggregation htype haggregates hy

/-- Aggregations over the same table. -/
def ordersAggregation : Context :=
  { ordersFilter with mode := .aggregation }

/-- A sum of conditional values, with nothing aggregated below it. -/
theorem aggregation_levels_sum :
    ∃ e, compile ordersAggregation "Sum(case([Total] > 1, [Total], 0))" = .ok e ∧
      e.aggregates = true ∧
      ∀ y, TransGen ChecksNext e y → y.aggregates = false ∧ y.isMetric = false := by
  obtain ⟨e, he, haggregates⟩ := exists_ok_of_any
    (show (compile ordersAggregation "Sum(case([Total] > 1, [Total], 0))").toOption.any
      Expr.aggregates = true by decide +kernel)
  exact ⟨e, he, haggregates, fun y hy =>
    (aggregation_levels he).2 rfl e y ReflTransGen.refl haggregates hy⟩

end QueryFormula
