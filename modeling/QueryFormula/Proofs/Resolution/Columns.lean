import QueryFormula.Proofs.Resolution.Aggregation

/-!
# Columns in aggregations

In an aggregation a column has to be aggregated: a name where an aggregation is
expected is bound to a metric or not at all.  Only numbers and scalars below a clause
keep that expectation.  Arguments that are declared as texts or dates, and the tests of
conditionals, are checked as what they are, and a column may stand there bare
(`compile_bare_columns`).

`Expr.exposed` lists the nodes outside of all these and outside of aggregating clauses.
No column is among them (`exposed_not_column`).
-/

namespace QueryFormula

open QueryFormula.Expr

/-- Arguments of these types are not aggregated together with their clause. -/
def ValueType.isRowwise : ValueType → Bool
  | string | datetime => true
  | _ => false

/-- The argument of the clause at this position is a text or a date. -/
def isRowwiseAt (op : String) (position : Nat) : Bool :=
  (signature? op).any fun s => (s.parameter? position).any ValueType.isRowwise

namespace Expr

/-- The node is a column, of a table or a custom one. -/
def isColumn : Expr → Bool
  | bound (.field _ _) _ | bound (.expression _ _) _ => true
  | _ => false

mutual

/-- The nodes of a tree that lie in no aggregating clause, in no argument that is a
text or a date, and in no test. -/
def exposed : Expr → List Expr
  | clause op xs o =>
    clause op xs o :: if aggregates (clause op xs o) then [] else exposedOperands op 0 xs
  | options es o => options es o :: exposedEntries es
  | pairs ps o => pairs ps o :: exposedValues ps
  | e => [e]

/-- The nodes of the operands of a clause from a position on; options have no
position. -/
def exposedOperands (op : String) (position : Nat) : List Expr → List Expr
  | [] => []
  | x :: xs =>
    if x.isOptions then exposed x ++ exposedOperands op position xs
    else
      (if isRowwiseAt op position then [] else exposed x) ++
        exposedOperands op (position + 1) xs

/-- The nodes of the values of an options object. -/
def exposedEntries : List (String × Expr) → List Expr
  | [] => []
  | (_, v) :: es => exposed v ++ exposedEntries es

/-- The nodes of the values of grouped cases. -/
def exposedValues : List (Expr × Expr) → List Expr
  | [] => []
  | (_, v) :: ps => exposed v ++ exposedValues ps

end

/-- No exposed node is a column. -/
def Covered (e : Expr) : Prop :=
  ∀ x ∈ e.exposed, x.isColumn = false

/-- No exposed node of the operands from a position on is a column. -/
def OperandsCovered (op : String) (position : Nat) (operands : List Expr) : Prop :=
  ∀ x ∈ exposedOperands op position operands, x.isColumn = false

@[simp] theorem covered_literal (v : Literal) (o : Option Span) : Covered (literal v o) := by
  simp [Covered, exposed, isColumn]

@[simp] theorem covered_reference (k : NameKind) (n : String) (o : Option Span) :
    Covered (reference k n o) := by
  simp [Covered, exposed, isColumn]

@[simp] theorem covered_bound (t : BoundRef) (o : Option Span) :
    Covered (bound t o) ↔ isColumn (bound t o) = false := by
  simp [Covered, exposed]

theorem covered_clause (op : String) (xs : List Expr) (o : Option Span) :
    Covered (clause op xs o) ↔ aggregates (clause op xs o) = true ∨ OperandsCovered op 0 xs := by
  rw [Covered, exposed]
  by_cases haggregates : aggregates (clause op xs o) = true
  · simp [haggregates, isColumn]
  · rw [if_neg haggregates]
    simp [haggregates, OperandsCovered, isColumn]

@[simp] theorem covered_options (es : List (String × Expr)) (o : Option Span) :
    Covered (options es o) ↔ ∀ e ∈ es, Covered e.2 := by
  simp only [Covered, exposed, List.forall_mem_cons, isColumn, true_and]
  induction es with
  | nil => simp [exposedEntries]
  | cons e es ih => simp only [exposedEntries, List.forall_mem_append, List.forall_mem_cons, ih]

@[simp] theorem covered_pairs (ps : List (Expr × Expr)) (o : Option Span) :
    Covered (pairs ps o) ↔ ∀ p ∈ ps, Covered p.2 := by
  simp only [Covered, exposed, List.forall_mem_cons, isColumn, true_and]
  induction ps with
  | nil => simp [exposedValues]
  | cons p ps ih => simp only [exposedValues, List.forall_mem_append, List.forall_mem_cons, ih]

@[simp] theorem operandsCovered_nil (op : String) (position : Nat) :
    OperandsCovered op position [] := by
  simp [OperandsCovered, exposedOperands]

theorem operandsCovered_options {op : String} {position : Nat} {x : Expr} {xs : List Expr}
    (hx : x.isOptions = true) :
    OperandsCovered op position (x :: xs) ↔ Covered x ∧ OperandsCovered op position xs := by
  simp only [OperandsCovered, exposedOperands, hx, if_true, List.forall_mem_append, Covered]

theorem operandsCovered_value {op : String} {position : Nat} {x : Expr} {xs : List Expr}
    (hx : x.isOptions = false) :
    OperandsCovered op position (x :: xs) ↔
      (isRowwiseAt op position = false → Covered x) ∧ OperandsCovered op (position + 1) xs := by
  simp only [OperandsCovered, exposedOperands, hx, Bool.false_eq_true, if_false,
    List.forall_mem_append, Covered]
  cases isRowwiseAt op position <;> simp

/-- Covered operands are covered at any positions. -/
theorem operandsCovered_of_forall {op : String} {position : Nat} {xs : List Expr}
    (h : ∀ x ∈ xs, Covered x) : OperandsCovered op position xs := by
  induction xs generalizing position with
  | nil => exact operandsCovered_nil op position
  | cons x xs ih =>
      obtain ⟨hx, hxs⟩ := List.forall_mem_cons.mp h
      by_cases hoptions : x.isOptions = true
      · exact (operandsCovered_options hoptions).mpr ⟨hx, ih hxs⟩
      · exact (operandsCovered_value (Bool.eq_false_iff.mpr hoptions)).mpr
          ⟨fun _ => hx, ih hxs⟩

/-- Where nothing is bound, no column is exposed. -/
theorem covered_of_everyName {P : String → Prop} {e : Expr}
    (h : EveryName P (fun _ => False) e) : Covered e := by
  induction e with
  | literal v o => exact covered_literal v o
  | reference k n o => exact covered_reference k n o
  | bound t o => exact ((everyName_bound t o).mp h).elim
  | clause op xs o ih =>
      have hbelow := (everyName_clause op xs o).mp h
      exact (covered_clause op xs o).mpr
        (.inr (operandsCovered_of_forall fun x hx => ih x hx (hbelow x hx)))
  | options es o ih =>
      have hbelow := (everyName_options es o).mp h
      exact (covered_options es o).mpr fun e he => ih e he (hbelow e he)
  | pairs ps o ih =>
      have hbelow := (everyName_pairs ps o).mp h
      exact (covered_pairs ps o).mpr fun p hp => (ih p hp).2 (hbelow p hp).2

end Expr

/-! ### Resolution covers columns -/

variable {bind : Binder (Except ResolutionError)}

/-- Where an aggregation is expected, the clauses that fit and do not aggregate declare no
condition, conditionals apart; and what they do not declare as a text or a date is still
to be an aggregation. -/
theorem operandType_of_not_rowwise {op : String} {s : Signature} {position : Nat}
    {declared : ValueType} (hs : signature? op = some s) (hcond : isConditional op = false)
    (hkind : ValueType.aggregation.accepts s.kind = true) (hnot : s.kind ≠ .aggregation)
    (hdeclares : s.parameter? position = some declared)
    (hrowwise : isRowwiseAt op position = false) :
    operandType s declared .aggregation = .aggregation := by
  have hrows : ∀ s ∈ catalog, isConditional s.name = false →
      ValueType.aggregation.accepts s.kind = true → s.kind ≠ .aggregation →
      ∀ declared ∈ s.parameters, declared.isRowwise = false →
        operandType s declared .aggregation = .aggregation := by
    decide
  have hname := (mem_catalog_of_signature? hs).2
  refine of_signature? hrows hs (hname ▸ hcond) hkind hnot declared
    (mem_parameters_of_parameter? hdeclares) ?_
  simpa [isRowwiseAt, hs, hdeclares] using hrowwise

/-- Resolved operands of a clause that does not aggregate are covered. -/
theorem covered_of_operandsResolve (hbind : AnswersNames bind) {s : Signature} {op : String}
    (hs : signature? op = some s) (hcond : isConditional op = false)
    (hkind : ValueType.aggregation.accepts s.kind = true) (hnot : s.kind ≠ .aggregation)
    {position : Nat} {xs ys : List Expr}
    (h : OperandsResolve bind s .aggregation position xs ys)
    (hxs : ∀ x ∈ xs, Unresolved x ∧ ∀ r, resolve bind .aggregation x = .ok r → Covered r) :
    OperandsCovered op position ys := by
  induction h with
  | nil => exact operandsCovered_nil op _
  | options his hrest ih =>
      obtain ⟨⟨hx, -⟩, hbelow⟩ := List.forall_mem_cons.mp hxs
      exact (operandsCovered_options his).mpr ⟨covered_of_everyName hx.2, ih hbelow⟩
  | declared hvalue hdeclares hfirst hrest ih =>
      obtain ⟨⟨-, hcovered⟩, hbelow⟩ := List.forall_mem_cons.mp hxs
      refine (operandsCovered_value (isOptions_of_resolve hbind hvalue hfirst)).mpr
        ⟨fun hrowwise => ?_, ih hbelow⟩
      rw [operandType_of_not_rowwise hs hcond hkind hnot hdeclares hrowwise] at hfirst
      exact hcovered _ hfirst
  | spare hvalue _ hrest ih =>
      obtain ⟨⟨hx, -⟩, hbelow⟩ := List.forall_mem_cons.mp hxs
      exact (operandsCovered_value hvalue).mpr
        ⟨fun _ => covered_of_everyName hx.2, ih hbelow⟩

/-- Grouped cases are covered if their values are, whatever holds of their tests. -/
theorem covered_of_cases {ps qs : List (Expr × Expr)} {place : Option Span}
    {Tests : Expr × Expr → Expr × Expr → Prop}
    (h : List.Forall₂ (fun p q => Tests p q ∧
      (ValueType.aggregation = .aggregation → Unresolved p.2 → Covered q.2)) ps qs)
    (hgroup : Unresolved (.pairs ps place)) : Covered (.pairs qs place) := by
  refine (covered_pairs qs place).mpr fun q hq => ?_
  obtain ⟨p, hp, -, hvalue⟩ := exists_mem_of_forall₂ h.flip hq
  exact hvalue rfl ((unresolved_pairs ps place).mp hgroup p hp).2

/-- **What is resolved as an aggregation exposes no column.** -/
theorem covered_of_resolve (hbind : AnswersKind bind) {expected : ValueType} {e r : Expr}
    (h : resolve bind expected e = .ok r) (haggregation : expected = .aggregation)
    (hmet : Unresolved e) : Covered r := by
  revert haggregation hmet
  refine resolve_induct
    (motive := fun expected e r => expected = .aggregation → Unresolved e → Covered r)
    ?literal ?reference ?bound ?options ?pairs ?cases ?casesDefault ?flat h
  case literal => exact fun _ v o _ _ _ => covered_literal v o
  case reference =>
    rintro _ k n o r hr rfl -
    rcases hbind _ _ _ _ hr with ⟨place, rfl⟩ | ⟨target, place, rfl, htarget⟩
    · cases place <;> exact covered_reference _ _ _
    · have hmetric : target.isMetric = true := htarget.mpr rfl
      cases target with
      | metric id => cases place <;> exact (covered_bound _ _).mpr rfl
      | _ => cases hmetric
  case bound => exact fun _ t o _ hmet => ((everyName_bound t o).mp hmet.2).elim
  case options => exact fun _ _ _ _ hmet => covered_of_everyName hmet.2
  case pairs => exact fun _ _ _ _ hmet => covered_of_everyName hmet.2
  case cases =>
    rintro _ op ps qs place o s _ _ _ _ hcases rfl hmet
    have hgroup := ((unresolved_clause op _ o).mp hmet).2 _ List.mem_cons_self
    exact (covered_clause op _ o).mpr (.inr (operandsCovered_of_forall
      (List.forall_mem_singleton.mpr (covered_of_cases hcases hgroup))))
  case casesDefault =>
    rintro _ op ps qs place es fs spot o s _ _ _ _ hcases hentries rfl hmet
    obtain ⟨hgroup, hrest⟩ := List.forall_mem_cons.mp ((unresolved_clause op _ o).mp hmet).2
    have hspot := (unresolved_options es spot).mp (List.forall_mem_singleton.mp hrest)
    have hdefault : Covered (.options fs spot) := by
      refine (covered_options fs spot).mpr fun f hf => ?_
      rcases hentries.exists_of_mem hf with hsame | ⟨e, he, hresolved⟩
      · exact covered_of_everyName (hspot f hsame).2
      · exact hresolved rfl (hspot e he)
    exact (covered_clause op _ o).mpr (.inr (operandsCovered_of_forall (List.forall_mem_cons.mpr
      ⟨covered_of_cases hcases hgroup, List.forall_mem_singleton.mpr hdefault⟩)))
  case flat =>
    rintro _ op xs ys o s hs hkind hplain _ hlist ih rfl hmet
    obtain ⟨hlayout, hbelow⟩ := (unresolved_clause op xs o).mp hmet
    by_cases haggregation : s.kind = .aggregation
    · have haggregates : aggregates (.clause op ys o) = true := by
        rw [aggregates, hs, Option.any_some, haggregation]
        rfl
      exact (covered_clause op ys o).mpr (.inl haggregates)
    · have hcond := hlayout.not_conditional hplain
      exact (covered_clause op ys o).mpr (.inr (covered_of_operandsResolve hbind.answersNames hs hcond hkind
        haggregation hlist fun x hx =>
          ⟨hbelow x hx, fun r hr => ih x hx _ r hr rfl (hbelow x hx)⟩))

/-! ### Comparisons keep columns covered -/

/-- A comparison with `true` is covered if what is compared is. -/
theorem covered_equalsTrue {e : Expr} (h : Covered e) : Covered e.equalsTrue := by
  refine (covered_clause _ _ _).mpr (.inr (operandsCovered_of_forall ?_))
  exact List.forall_mem_cons.mpr ⟨h, List.forall_mem_singleton.mpr (covered_literal _ _)⟩

/-- What becomes of an operand is covered if the operand was; nothing in a test is exposed. -/
theorem BecomesOperand.covered {x y : Expr} (h : BecomesOperand x y) (hx : Covered x) :
    Covered y := by
  rcases h with ⟨_ | _⟩ | ⟨ps, o⟩
  · exact hx
  · exact covered_equalsTrue hx
  · exact (covered_pairs _ o).mpr (List.forall_mem_map.mpr ((covered_pairs ps o).mp hx))

/-- Operands that stay covered, one by one, are the covered operands of a clause; what lies in an
argument that is a text or a date does not matter. -/
theorem Expr.OperandsCovered.imp {op : String} {position : Nat} {xs ys : List Expr}
    (hxy : List.Forall₂ (fun x y => y.isOptions = x.isOptions ∧ (Covered x → Covered y)) xs ys)
    (h : OperandsCovered op position xs) : OperandsCovered op position ys := by
  induction hxy generalizing position with
  | nil => exact h
  | @cons x y xs ys hfirst _ ih =>
      obtain ⟨hkind, hcovered⟩ := hfirst
      cases hoptions : x.isOptions with
      | true =>
          obtain ⟨hx, hrest⟩ := (operandsCovered_options hoptions).mp h
          exact (operandsCovered_options (hkind.trans hoptions)).mpr ⟨hcovered hx, ih hrest⟩
      | false =>
          obtain ⟨hx, hrest⟩ := (operandsCovered_value hoptions).mp h
          exact (operandsCovered_value (hkind.trans hoptions)).mpr
            ⟨fun hrowwise => hcovered (hx hrowwise), ih hrest⟩

/-- **Comparisons keep columns covered.** -/
theorem covered_compareConditions {e : Expr} (h : Covered e) : Covered (compareConditions e) := by
  induction e with
  | literal v o => simp [compareConditions]
  | reference k n o => simp [compareConditions]
  | bound t o => rwa [compareConditions, bottomUp_bound]
  | clause op xs o ih =>
      obtain ⟨ys, hys, hbecomes⟩ := exists_compareConditions_clause op xs o
      rw [hys, covered_clause]
      exact ((covered_clause op xs o).mp h).imp (fun haggregates => haggregates) fun hxs =>
        hxs.imp (forall₂_compareConditions hbecomes BecomesOperand.covered ih)
  | options es o ih =>
      have hbelow := (covered_options es o).mp h
      rw [compareConditions, bottomUp_options, covered_options]
      exact List.forall_mem_map.mpr fun e he => ih e he (hbelow e he)
  | pairs ps o ih =>
      have hbelow := (covered_pairs ps o).mp h
      rw [compareConditions, bottomUp_pairs, covered_pairs]
      exact List.forall_mem_map.mpr fun p hp => (ih p hp).2 (hbelow p hp)

/-- **In an aggregation columns are aggregated,** but for those in arguments that are
texts or dates and in tests. -/
theorem exposed_not_column {context : Context} {source : String} {e : Expr}
    (hmode : context.mode = .aggregation) (h : compile context source = .ok e) :
    ∀ x ∈ e.exposed, x.isColumn = false := by
  obtain ⟨tree, bound, hread, hresolve, rfl⟩ := compile_eq_ok_iff.mp h
  rw [Context.resolve, hmode] at hresolve
  have hcovered := covered_of_resolve (answersKind_bind context) hresolve rfl
    (unresolved_of_readTree hread)
  exact covered_compareConditions hcovered

/-- A column inside an aggregation, a metric-free formula around it. -/
theorem exposed_not_column_ratio :
    ∃ e, compile ordersAggregation "Sum([Total]) / Count()" = .ok e ∧
      e.nodes.any isColumn = true ∧ ∀ x ∈ e.exposed, x.isColumn = false := by
  obtain ⟨e, he, hcolumn⟩ := exists_ok_of_any
    (show (compile ordersAggregation "Sum([Total]) / Count()").toOption.any
      (fun e => e.nodes.any isColumn) = true by decide +kernel)
  exact ⟨e, he, hcolumn, exposed_not_column rfl he⟩

/-- No clause of the tree aggregates, so nothing lies below one. -/
def Expr.aggregatesNowhere (e : Expr) : Bool :=
  e.nodes.all fun x => !x.aggregates

/-- A text, a date and a test, each with a column that nothing aggregates. -/
theorem compile_bare_columns :
    (∃ e, compile ordersAggregation "length([Total])" = .ok e ∧
      (e.nodes.any isColumn && e.aggregatesNowhere) = true) ∧
    (∃ e, compile ordersAggregation "year([Created])" = .ok e ∧
      (e.nodes.any isColumn && e.aggregatesNowhere) = true) ∧
    (∃ e, compile ordersAggregation "case([Total] > 1, 2)" = .ok e ∧
      (e.nodes.any isColumn && e.aggregatesNowhere) = true) :=
  ⟨exists_ok_of_any (by decide +kernel), exists_ok_of_any (by decide +kernel),
    exists_ok_of_any (by decide +kernel)⟩

end QueryFormula
