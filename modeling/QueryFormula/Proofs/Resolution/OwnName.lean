import QueryFormula.Proofs.Expr.Condition
import QueryFormula.Proofs.NormalForm.Names
import QueryFormula.Proofs.Resolution.Binding
import QueryFormula.Proofs.Resolution.Success
import QueryFormula.Proofs.Schema.Quoted

/-!
# References of a column to itself

The column that is being defined is hidden from its own formula by its name.  A column
answers to more than its name, though: to the label that users see, and to
`Table → Column`.  A spelling of this kind is an alias (`Context.IsAlias`), and it is
not hidden.

Every target of a clause tree is what some name of the formula was bound to
(`boundByName_of_compile`).  So a formula refers to its own column through an alias or not
at all (`alias_of_ownTarget`), and wherever there is an alias some formula does
(`exists_ownTarget_iff`).
-/

namespace QueryFormula

open QueryFormula.Expr

/-! ### What names become -/

section Names

variable {P : String → Prop} {Q : BoundRef → Prop}

/-- Grouped cases hold what their tests and values hold. -/
theorem everyName_pairs_of_cases {P' : String → Prop} {Q' : BoundRef → Prop}
    {ps qs : List (Expr × Expr)} {place : Option Span}
    (h : List.Forall₂ (fun p q => (EveryName P Q p.1 → EveryName P' Q' q.1) ∧
      (EveryName P Q p.2 → EveryName P' Q' q.2)) ps qs)
    (hgroup : EveryName P Q (.pairs ps place)) : EveryName P' Q' (.pairs qs place) := by
  refine (everyName_pairs qs place).mpr fun q hq => ?_
  obtain ⟨p, hp, htest, hvalue⟩ := exists_mem_of_forall₂ h.flip hq
  obtain ⟨hinside, hinside'⟩ := (everyName_pairs ps place).mp hgroup p hp
  exact ⟨htest hinside, hvalue hinside'⟩

/-- **What resolution binds.**  If a binder makes only targets of one sort of names of
another, so does resolution. -/
theorem everyName_resolve {bind : Binder (Except ResolutionError)}
    (hbind : ∀ kind n occurrence r, P n → bind kind n occurrence = .ok r →
      EveryName (fun _ => True) Q r)
    {expected : ValueType} {e r : Expr} (h : resolve bind expected e = .ok r)
    (hname : EveryName P (fun _ => False) e) : EveryName (fun _ => True) Q r := by
  have hkept : ∀ x, EveryName P (fun _ => False) x → EveryName (fun _ => True) Q x :=
    fun _ hx => hx.mono (fun _ _ => trivial) fun _ => False.elim
  revert hname
  refine resolve_induct
    (motive := fun _ e r => EveryName P (fun _ => False) e → EveryName (fun _ => True) Q r)
    ?literal ?reference ?bound ?options ?pairs ?cases ?casesDefault ?flat h
  case literal => exact fun _ v o _ _ => everyName_literal v o
  case reference =>
    intro _ k n o r hr hname
    rw [everyName_adoptOrigin]
    exact hbind _ n _ r ((everyName_reference k n o).mp hname) hr
  case bound => exact fun _ _ _ => hkept _
  case options => exact fun _ _ _ => hkept _
  case pairs => exact fun _ _ _ => hkept _
  case cases =>
    intro _ op ps qs place o s _ _ _ _ hcases hname
    have hgroup := (everyName_clause op _ o).mp hname _ List.mem_cons_self
    exact (everyName_clause op _ o).mpr
      (List.forall_mem_singleton.mpr (everyName_pairs_of_cases hcases hgroup))
  case casesDefault =>
    intro _ op ps qs place es fs spot o s _ _ _ _ hcases hentries hname
    obtain ⟨hgroup, hrest⟩ := List.forall_mem_cons.mp ((everyName_clause op _ o).mp hname)
    have hspot := (everyName_options es spot).mp (List.forall_mem_singleton.mp hrest)
    have hdefault : EveryName (fun _ => True) Q (.options fs spot) := by
      refine (everyName_options fs spot).mpr fun f hf => ?_
      rcases hentries.exists_of_mem hf with hsame | ⟨e, he, hresolved⟩
      · exact hkept _ (hspot f hsame)
      · exact hresolved (hspot e he)
    exact (everyName_clause op _ o).mpr (List.forall_mem_cons.mpr
      ⟨everyName_pairs_of_cases hcases hgroup, List.forall_mem_singleton.mpr hdefault⟩)
  case flat =>
    intro _ op xs ys o s _ _ _ _ hlist ih hname
    have hbelow := (everyName_clause op xs o).mp hname
    refine (everyName_clause op ys o).mpr fun y hy => ?_
    rcases hlist.exists_of_mem hy with hsame | ⟨x, hx, type, hresolved⟩
    · exact hkept y (hbelow y hsame)
    · exact ih x hx type y hresolved (hbelow x hx)

theorem everyName_equalsTrue {e : Expr} (h : EveryName P Q e) : EveryName P Q e.equalsTrue :=
  (everyName_clause _ _ _).mpr
    (List.forall_mem_cons.mpr ⟨h, List.forall_mem_singleton.mpr (everyName_literal _ _)⟩)

/-- A comparison with `true` writes no name. -/
theorem addsNoName_conditionClause : AddsNoName conditionClause := by
  intro P Q op xs o hxs
  obtain ⟨ys, hys, hoperands⟩ := exists_conditionClause op xs o
  rw [hys, everyName_clause]
  exact BecomesOperand.keepsAll (fun _ _ => everyName_equalsTrue) everyName_pairs hoperands hxs

end Names

/-! ### What names are bound to -/

/-- The name is bound to the target, where some kind of reference is wanted. -/
def Context.BindsTo {σ : Type} [Lookup σ] (context : Context σ) (name : String) (target : BoundRef) : Prop :=
  ∃ schema kind place, context.schema = some schema ∧
    context.target schema kind name place = .ok target

/-- A bound name is bound to what it is said to be bound to. -/
theorem everyName_bind {σ : Type} [Lookup σ] {context : Context σ} {kind : NameKind}
    {n : String} {occurrence : Occurrence} {r : Expr}
    (h : context.bind kind n occurrence = .ok r) :
    EveryName (fun _ => True) (context.BindsTo n) r := by
  rcases Context.bind_cases h with ⟨-, rfl⟩ | ⟨schema, target, hschema, htarget, rfl⟩
  · exact (everyName_reference kind n none).mpr trivial
  · exact (everyName_bound target none).mpr ⟨schema, kind, _, hschema, htarget⟩

/-- **Every target of a clause tree** is what some name of the formula was bound to. -/
theorem boundByName_of_compile {σ : Type} [Lookup σ] {context : Context σ} {source : String}
    {e : Expr}
    (h : compile context source = .ok e) :
    ∃ tree, readTree source = .ok tree ∧
      ∀ target ∈ e.targets, ∃ n ∈ tree.names, context.BindsTo n target := by
  obtain ⟨tree, bound, hread, hresolve, rfl⟩ := compile_eq_ok_iff.mp h
  have htree : EveryName (· ∈ tree.names) (fun _ => False) tree :=
    everyName_iff.mpr ⟨fun _ hn => hn, (everyName_iff.mp (everyName_of_readTree hread)).2⟩
  have hbound : EveryName (fun _ => True) (fun target => ∃ n ∈ tree.names, context.BindsTo n target)
      bound := by
    refine everyName_resolve (fun kind n o r hn hr => ?_) hresolve htree.normalForm
    exact (everyName_bind hr).mono (fun _ _ => trivial) fun _ htarget => ⟨n, hn, htarget⟩
  exact ⟨tree, hread, (everyName_iff.mp (hbound.bottomUp addsNoName_conditionClause)).2⟩

/-! ### Aliases -/

/-- The target is the column that is being defined. -/
def Context.isOwnTarget (context : Context) : BoundRef → Bool
  | .expression name _ => context.isOwnName name
  | _ => false

/-- The spelling is not the name of the column that is being defined, and the first column
that answers to it, which is this target, does so by its label or as `Table → Column`. -/
def Context.IsAlias (context : Context) (spelling : String) (target : BoundRef) : Prop :=
  context.isOwnName spelling = false ∧
    ∃ schema stage column, context.schema = some schema ∧
      schema.stages[context.stage]? = some stage ∧
      stage.fields.find? (·.answersTo spelling) = some column ∧ column.target = target ∧
      (sameName column.label spelling || column.isQualified spelling) = true

/-- Two spellings of one name are both the name of the column, or neither is. -/
theorem Context.isOwnName_congr {context : Context} {a b : String} (h : sameName a b = true) :
    context.isOwnName a = context.isOwnName b := by
  have hmap : a.map Char.toLower = b.map Char.toLower := by simpa [sameName] using h
  simp only [Context.isOwnName, sameName, hmap]

/-- A column named as the one being defined does not answer by its name to a spelling that is
another name. -/
theorem Context.isAlias_of_field? {context : Context} {schema : Schema} {spelling : String}
    {target : BoundRef} (hschema : context.schema = some schema)
    (hown : context.isOwnTarget target = true)
    (h : context.field? schema spelling = some target) : context.IsAlias spelling target := by
  obtain ⟨hother, stage, column, hstage, hcolumn, rfl⟩ := Context.field?_eq_some_iff.mp h
  have hnamed : context.isOwnName column.name = true := by
    unfold Field.target at hown
    split at hown
    · exact hown
    · cases hown
  have hanswers : column.answersTo spelling = true := by simpa using List.find?_some hcolumn
  -- by its name the column answers only to spellings that are hidden
  have hdiffers : sameName column.name spelling = false := by
    refine Bool.eq_false_iff.mpr fun hsame => ?_
    rw [Context.isOwnName_congr hsame, hother] at hnamed
    cases hnamed
  refine ⟨hother, schema, stage, column, hschema, hstage, hcolumn, rfl, ?_⟩
  simpa [Field.answersTo, hdiffers] using hanswers

/-- A name that is bound to the column being defined is an alias of it. -/
theorem Context.BindsTo.isAlias {context : Context} {spelling : String} {target : BoundRef}
    (h : context.BindsTo spelling target) (hown : context.isOwnTarget target = true) :
    context.IsAlias spelling target := by
  obtain ⟨schema, kind, place, hschema, htarget⟩ := h
  rcases Context.target_cases htarget with ⟨-, hmetric⟩ | ⟨-, hsegment⟩ | ⟨-, hcolumn, -⟩
  · obtain ⟨id, rfl⟩ := Schema.metric_of_metric? hmetric
    cases hown
  · obtain ⟨id, rfl⟩ := Schema.segment_of_segment? hsegment
    cases hown
  · exact Context.isAlias_of_field? hschema hown hcolumn

/-- **A formula refers to its own column through an alias,** or not at all. -/
theorem alias_of_ownTarget {context : Context} {source : String} {e : Expr}
    (h : compile context source = .ok e) {target : BoundRef} (htarget : target ∈ e.targets)
    (hown : context.isOwnTarget target = true) :
    ∃ tree, readTree source = .ok tree ∧ ∃ n ∈ tree.names, context.IsAlias n target := by
  obtain ⟨tree, hread, htargets⟩ := boundByName_of_compile h
  obtain ⟨n, hn, hbinds⟩ := htargets target htarget
  exact ⟨tree, hread, n, hn, hbinds.isAlias hown⟩

/-- The formula of the custom column `Profit`, which users see as `Net Profit`. -/
def profitColumn : Context where
  mode := .expression
  stage := 0
  ownName := some "Profit"
  schema := some
    { database := ⟨none, none⟩
      stages := [
        { fields := [⟨1, "Total", none, some "Orders", "type/Float", false⟩,
            ⟨0, "Profit", some "Net Profit", some "Orders", "type/Float", true⟩]
          metrics := []
          segments := [] }] }

/-- A column that refers to itself by its label. -/
theorem alias_of_ownTarget_label :
    ∃ e target, compile profitColumn "[Net Profit] + [Total]" = .ok e ∧ target ∈ e.targets ∧
      profitColumn.isOwnTarget target = true ∧
      ∃ tree, readTree "[Net Profit] + [Total]" = .ok tree ∧
        ∃ n ∈ tree.names, profitColumn.IsAlias n target := by
  obtain ⟨e, he, hany⟩ := exists_ok_of_any
    (show (compile profitColumn "[Net Profit] + [Total]").toOption.any
      (fun e => e.targets.any profitColumn.isOwnTarget) = true by decide +kernel)
  obtain ⟨target, htarget, hown⟩ := List.any_eq_true.mp hany
  exact ⟨e, target, he, htarget, hown, alias_of_ownTarget he htarget hown⟩

/-- The column is not hidden from its own formula by its label, nor as `Table → Column`. -/
theorem compile_ownTarget :
    profitColumn.ownName = some "Profit" ∧
    (∃ e, compile profitColumn "[Net Profit] + 1" = .ok e ∧
      e.targets.any profitColumn.isOwnTarget = true) ∧
    (∃ e, compile profitColumn "[Orders → Net Profit] + 1" = .ok e ∧
      e.targets.any profitColumn.isOwnTarget = true) :=
  ⟨rfl, exists_ok_of_any (by decide +kernel), exists_ok_of_any (by decide +kernel)⟩

/-! ### Every alias is used by some formula -/

/-- An alias is bound where a column is wanted. -/
theorem Context.IsAlias.bind {context : Context} {spelling : String} {target : BoundRef}
    (h : context.IsAlias spelling target) (occurrence : Occurrence) :
    context.bind .dimension spelling occurrence = .ok (.bound target none) := by
  obtain ⟨hother, schema, stage, column, hschema, hstage, hcolumn, rfl, -⟩ := h
  have hfield : context.field? schema spelling = some column.target :=
    Context.field?_eq_some_iff.mpr ⟨hother, stage, column, hstage, hcolumn, rfl⟩
  simp [Context.bind, hschema, Context.target, hfield]

/-- An alias in brackets is a formula for what it means. -/
theorem compile_alias {context : Context} {spelling : String} {target : BoundRef}
    (hmode : context.mode = .expression) (h : context.IsAlias spelling target) :
    compile context (Bracketed.quote spelling) =
      .ok (.bound target (some ⟨0, byteLength (Bracketed.quote spelling).toList⟩)) := by
  refine compile_quote_of_bind ?_
  rw [hmode]
  exact h.bind _

/-- **Hiding fails just where there is an alias.**  Some formula for a column refers to the
column itself just when the column has an alias. -/
theorem exists_ownTarget_iff (context : Context) :
    (∃ mode source e, compile { context with mode := mode } source = .ok e ∧
      ∃ target ∈ e.targets, context.isOwnTarget target = true) ↔
    ∃ spelling target, context.IsAlias spelling target ∧ context.isOwnTarget target = true := by
  constructor
  · rintro ⟨mode, source, e, he, target, htarget, hown⟩
    obtain ⟨tree, -, htargets⟩ := boundByName_of_compile he
    obtain ⟨spelling, -, hbinds⟩ := htargets target htarget
    exact ⟨spelling, target, hbinds.isAlias hown, hown⟩
  · rintro ⟨spelling, target, halias, hown⟩
    have halias' : Context.IsAlias { context with mode := .expression } spelling target := halias
    exact ⟨.expression, _, _, compile_alias rfl halias', target, List.mem_singleton_self target,
      hown⟩

end QueryFormula
