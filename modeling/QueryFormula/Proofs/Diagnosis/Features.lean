import QueryFormula.Diagnosis.Verdict
import QueryFormula.Proofs.Expr.Listing

/-!
# The features that a clause needs

`Permits` says of one clause that the mode and the features of the database allow it, and
`Objection` what is said against it otherwise.  The walk through a tree looks at every clause
in document order (`findsFirst`), so a clause is accepted just when all of its
clauses are permitted, and otherwise the first that is not is reported
(`verdict_ofFeatures`).
-/

namespace QueryFormula

open QueryFormula.Expr

/-- The operators of the clauses of a tree, of each before those of what is below it. -/
def Expr.operators (e : Expr) : List String :=
  e.listed operator?

/-- The mode allows the clause, and the feature that it needs, if any, is among those listed.
Where none are listed the database has all. -/
def Permits (features : Option (List String)) (mode : Mode) (op : String) : Prop :=
  (op = "offset" → mode = .aggregation) ∧
    ∀ s feature listed, signature? op = some s → s.feature? = some feature →
      features = some listed → feature ∈ listed

/-- What is said against a clause.  The mode comes before the features. -/
inductive Objection (features : Option (List String)) (mode : Mode) (op : String) :
    String → Prop
  | column (isOffset : op = "offset") (hmode : mode = .expression) :
      Objection features mode op "OFFSET is not supported in custom columns"
  | filter (isOffset : op = "offset") (hmode : mode = .boolean) :
      Objection features mode op "OFFSET is not supported in custom filters"
  | feature {s : Signature} {feature : String} {listed : List String}
      (allowed : op = "offset" → mode = .aggregation) (hs : signature? op = some s)
      (hfeature : s.feature? = some feature) (hlisted : features = some listed)
      (missing : feature ∉ listed) :
      Objection features mode op (s.displayName ++ " is not supported by this database")

/-- Whatever is listed in `features` is listed in `more`. -/
def Includes (more features : Option (List String)) : Prop :=
  ∀ listed', more = some listed' →
    ∃ listed, features = some listed ∧ ∀ feature ∈ listed, feature ∈ listed'

/-! ### One clause -/

section Clause

variable {features : Option (List String)} {mode : Mode} {op : String} {offence : Offence}

theorem supports_eq_false_iff {feature : String} :
    supports features feature = false ↔ ∃ listed, features = some listed ∧ feature ∉ listed := by
  cases features <;> simp [supports]

theorem offsetOffence?_eq_none_iff :
    offsetOffence? mode op = none ↔ (op = "offset" → mode = .aggregation) := by
  unfold offsetOffence?
  cases mode <;> simp

theorem featureOffence?_eq_some_iff :
    featureOffence? features op = some offence ↔
      ∃ s feature listed, signature? op = some s ∧ s.feature? = some feature ∧
        features = some listed ∧ feature ∉ listed ∧ offence = .unsupported s.displayName := by
  constructor
  · intro h
    obtain ⟨s, hs, h⟩ := Option.bind_eq_some_iff.mp h
    obtain ⟨feature, hfeature, h⟩ := Option.bind_eq_some_iff.mp h
    split at h
    · cases h
    · rename_i hsupports
      obtain ⟨listed, hlisted, hmissing⟩ :=
        supports_eq_false_iff.mp (Bool.eq_false_iff.mpr hsupports)
      exact ⟨s, feature, listed, hs, hfeature, hlisted, hmissing, (Option.some.inj h).symm⟩
  · rintro ⟨s, feature, listed, hs, hfeature, hlisted, hmissing, rfl⟩
    have hsupports : supports features feature = false :=
      supports_eq_false_iff.mpr ⟨listed, hlisted, hmissing⟩
    simp [featureOffence?, hs, hfeature, hsupports]

/-- What is found against a clause is an objection to it, in the same words. -/
theorem objection_of_clauseOffence? (h : clauseOffence? features mode op = some offence) :
    Objection features mode op offence.message := by
  rcases Option.or_eq_some_iff.mp h with hoffset | ⟨hallowed, hfeature⟩
  · unfold offsetOffence? at hoffset
    split at hoffset
    · rename_i hop
      cases mode with
      | expression =>
          cases hoffset
          exact .column hop rfl
      | boolean =>
          cases hoffset
          exact .filter hop rfl
      | aggregation => cases hoffset
    · cases hoffset
  · obtain ⟨s, feature, listed, hs, hneeds, hlisted, hmissing, rfl⟩ :=
      featureOffence?_eq_some_iff.mp hfeature
    exact .feature (offsetOffence?_eq_none_iff.mp hallowed) hs hneeds hlisted hmissing

/-- No clause is permitted against which something is said. -/
theorem Objection.not_permits {message : String} (h : Objection features mode op message) :
    ¬Permits features mode op := by
  rintro ⟨hallowed, hlisted⟩
  cases h with
  | column hop hmode => cases hmode.symm.trans (hallowed hop)
  | filter hop hmode => cases hmode.symm.trans (hallowed hop)
  | feature _ hs hfeature hfeatures hmissing =>
      exact hmissing (hlisted _ _ _ hs hfeature hfeatures)

theorem clauseOffence?_eq_none_iff :
    clauseOffence? features mode op = none ↔ Permits features mode op := by
  constructor
  · intro h
    obtain ⟨hoffset, hfeature⟩ := Option.or_eq_none_iff.mp h
    refine ⟨offsetOffence?_eq_none_iff.mp hoffset, fun s feature listed hs hneeds hlisted => ?_⟩
    by_contra hmissing
    have hsome : featureOffence? features op = some (.unsupported s.displayName) :=
      featureOffence?_eq_some_iff.mpr ⟨s, feature, listed, hs, hneeds, hlisted, hmissing, rfl⟩
    cases hfeature.symm.trans hsome
  · intro hpermits
    cases h : clauseOffence? features mode op with
    | none => rfl
    | some offence => exact absurd hpermits (objection_of_clauseOffence? h).not_permits

/-- With fewer features the same is said, or the clause is permitted with more as well. -/
theorem Objection.of_includes {more : Option (List String)} {message : String}
    (hmore : Includes more features) (h : Objection more mode op message) :
    Objection features mode op message := by
  cases h with
  | column hop hmode => exact .column hop hmode
  | filter hop hmode => exact .filter hop hmode
  | feature hallowed hs hfeature hlisted hmissing =>
      obtain ⟨listed, hfeatures, hsubset⟩ := hmore _ hlisted
      exact .feature hallowed hs hfeature hfeatures fun hmem => hmissing (hsubset _ hmem)

end Clause

/-! ### All clauses of a tree -/

section Operators

theorem operators_leaf {e : Expr} (hnodes : e.nodes = [e]) (hleaf : e.operator? = none) :
    e.operators = [] := by
  rw [operators, listed_leaf hnodes, hleaf]
  rfl

@[simp] theorem operators_clause (op : String) (xs : List Expr) (o : Option Span) :
    (clause op xs o).operators = op :: xs.flatMap operators :=
  listed_clause op xs o

@[simp] theorem operators_options (es : List (String × Expr)) (o : Option Span) :
    (options es o).operators = es.flatMap fun e => e.2.operators :=
  listed_options es o

@[simp] theorem operators_pairs (ps : List (Expr × Expr)) (o : Option Span) :
    (pairs ps o).operators = ps.flatMap fun p => p.1.operators ++ p.2.operators :=
  listed_pairs ps o

end Operators

section Tree

variable {features : Option (List String)} {mode : Mode}

/-- The first clause of the tree that is objected to is the one that is found. -/
def FindsFirst (features : Option (List String)) (mode : Mode) (e : Expr) : Prop :=
  firstOffence features mode e = e.operators.findSome? (clauseOffence? features mode)

theorem findsFirst_operands {xs : List Expr} (h : ∀ x ∈ xs, FindsFirst features mode x) :
    firstOffenceOfAll features mode xs =
      (xs.flatMap operators).findSome? (clauseOffence? features mode) := by
  induction xs with
  | nil => rfl
  | cons x xs ih =>
      obtain ⟨hx, hothers⟩ := List.forall_mem_cons.mp h
      rw [firstOffenceOfAll, hx, ih hothers, List.flatMap_cons, List.findSome?_append]

theorem findsFirst_entries {es : List (String × Expr)}
    (h : ∀ e ∈ es, FindsFirst features mode e.2) :
    firstOffenceOfEntries features mode es =
      (es.flatMap fun e => e.2.operators).findSome? (clauseOffence? features mode) := by
  induction es with
  | nil => rfl
  | cons e es ih =>
      obtain ⟨he, hothers⟩ := List.forall_mem_cons.mp h
      rw [firstOffenceOfEntries, he, ih hothers, List.flatMap_cons, List.findSome?_append]

theorem findsFirst_cases {ps : List (Expr × Expr)}
    (h : ∀ p ∈ ps, FindsFirst features mode p.1 ∧ FindsFirst features mode p.2) :
    firstOffenceOfPairs features mode ps =
      (ps.flatMap fun p => p.1.operators ++ p.2.operators).findSome?
        (clauseOffence? features mode) := by
  induction ps with
  | nil => rfl
  | cons p ps ih =>
      obtain ⟨⟨htest, hvalue⟩, hothers⟩ := List.forall_mem_cons.mp h
      rw [firstOffenceOfPairs, htest, hvalue, ih hothers, List.flatMap_cons,
        List.findSome?_append, List.findSome?_append, Option.or_assoc]

/-- **The walk** finds the first clause in document order that is objected to. -/
theorem findsFirst (e : Expr) : FindsFirst features mode e := by
  induction e with
  | literal v o => rw [FindsFirst, operators_leaf rfl rfl]; rfl
  | reference k n o => rw [FindsFirst, operators_leaf rfl rfl]; rfl
  | bound t o => rw [FindsFirst, operators_leaf rfl rfl]; rfl
  | clause op xs o ih =>
      rw [FindsFirst, firstOffence, findsFirst_operands ih, operators_clause, List.findSome?_cons]
      cases clauseOffence? features mode op <;> rfl
  | options es o ih =>
      rw [FindsFirst, firstOffence, findsFirst_entries ih, operators_options]
  | pairs ps o ih =>
      rw [FindsFirst, firstOffence, findsFirst_cases ih, operators_pairs]

/-- Nothing is found just when every clause is permitted. -/
theorem firstOffence_eq_none_iff {e : Expr} :
    firstOffence features mode e = none ↔ ∀ op ∈ e.operators, Permits features mode op := by
  rw [findsFirst e, List.findSome?_eq_none_iff]
  simp only [clauseOffence?_eq_none_iff]

/-- What is found is said against a clause behind clauses that are all permitted. -/
theorem first_of_firstOffence {e : Expr} {offence : Offence}
    (h : firstOffence features mode e = some offence) :
    ∃ before op after, e.operators = before ++ op :: after ∧
      (∀ earlier ∈ before, Permits features mode earlier) ∧
      Objection features mode op offence.message := by
  rw [findsFirst e] at h
  obtain ⟨before, op, after, hsplit, hop, hbefore⟩ := List.findSome?_eq_some_iff.mp h
  exact ⟨before, op, after, hsplit,
    fun earlier hearlier => clauseOffence?_eq_none_iff.mp (hbefore earlier hearlier),
    objection_of_clauseOffence? hop⟩

end Tree

/-! ### The validator -/

section Verdict

variable {features : Option (List String)} {inquiry : Inquiry}

/-- What a clause is answered that is neither options nor grouped cases. -/
theorem ofFeatures_of_isPlain (hroot : inquiry.clause.isPlain = true) :
    Validator.ofFeatures features inquiry =
      match firstOffence features inquiry.mode inquiry.clause with
      | some offence => .problem ⟨offence.message, true⟩
      | none => .valid := by
  have hnone : (inquiry.clause.isOptions || inquiry.clause.isPairs) = false := by
    rwa [isPlain, ← Bool.not_or, Bool.not_eq_true'] at hroot
  rw [Validator.ofFeatures, hnone]
  rfl

theorem ofFeatures_eq_valid_iff (hroot : inquiry.clause.isPlain = true) :
    Validator.ofFeatures features inquiry = .valid ↔
      ∀ op ∈ inquiry.clause.operators, Permits features inquiry.mode op := by
  rw [ofFeatures_of_isPlain hroot, ← firstOffence_eq_none_iff]
  cases firstOffence features inquiry.mode inquiry.clause <;> simp

/-- A clause that is not accepted is reported by the first that is not permitted. -/
theorem reports_of_ne_valid (hroot : inquiry.clause.isPlain = true)
    (h : Validator.ofFeatures features inquiry ≠ .valid) :
    ∃ before op after message, inquiry.clause.operators = before ++ op :: after ∧
      (∀ earlier ∈ before, Permits features inquiry.mode earlier) ∧
      Objection features inquiry.mode op message ∧
      Validator.ofFeatures features inquiry = .problem ⟨message, true⟩ := by
  have hanswer := @ofFeatures_of_isPlain features inquiry hroot
  cases hfirst : firstOffence features inquiry.mode inquiry.clause with
  | none =>
      rw [hfirst] at hanswer
      exact absurd hanswer h
  | some offence =>
      rw [hfirst] at hanswer
      obtain ⟨before, op, after, hsplit, hbefore, hop⟩ := first_of_firstOffence hfirst
      exact ⟨before, op, after, offence.message, hsplit, hbefore, hop, hanswer⟩

/-- **The features of a database.**  A tree whose root is neither options nor grouped cases
is accepted just when all of its clauses are permitted; otherwise the first in document order
that is not is reported.  More features never add an issue: what is reported with more of them
is said against the same clause with fewer, which is then not accepted either. -/
theorem verdict_ofFeatures (features : Option (List String)) (inquiry : Inquiry)
    (hroot : inquiry.clause.isPlain = true) :
    (Validator.ofFeatures features inquiry = .valid ↔
      ∀ op ∈ inquiry.clause.operators, Permits features inquiry.mode op) ∧
    (Validator.ofFeatures features inquiry ≠ .valid →
      ∃ before op after message, inquiry.clause.operators = before ++ op :: after ∧
        (∀ earlier ∈ before, Permits features inquiry.mode earlier) ∧
        Objection features inquiry.mode op message ∧
        Validator.ofFeatures features inquiry = .problem ⟨message, true⟩) ∧
    ∀ more issue, Includes more features →
      Validator.ofFeatures more inquiry = .problem issue →
      (∃ op ∈ inquiry.clause.operators, Objection features inquiry.mode op issue.message) ∧
        Validator.ofFeatures features inquiry ≠ .valid := by
  refine ⟨ofFeatures_eq_valid_iff hroot, reports_of_ne_valid hroot, ?_⟩
  intro more issue hmore hissue
  have hnot : Validator.ofFeatures more inquiry ≠ .valid := by
    rw [hissue]
    exact fun h => by cases h
  obtain ⟨before, op, after, message, hsplit, -, hop, hanswer⟩ := reports_of_ne_valid hroot hnot
  have hmem : op ∈ inquiry.clause.operators := by
    rw [hsplit]
    exact List.mem_append_right before List.mem_cons_self
  obtain rfl : issue = ⟨message, true⟩ := by
    cases hissue.symm.trans hanswer
    rfl
  have hfewer : Objection features inquiry.mode op message := hop.of_includes hmore
  exact ⟨⟨op, hmem, hfewer⟩,
    fun hvalid => hfewer.not_permits ((ofFeatures_eq_valid_iff hroot).mp hvalid op hmem)⟩

end Verdict

/-- A custom column with an aggregation in a test and an offset in the default. -/
def steadyColumn : Inquiry where
  stage := 0
  mode := .expression
  clause := .clause "case" [
    .pairs [(.clause ">" [.clause "median" [.reference .dimension "Total" none] none,
        .reference .dimension "Rating" none] none, .reference .dimension "Total" none)] none,
    .options [("default", .clause "offset" [.options [] none,
      .reference .dimension "Total" none, .reference .dimension "Rating" none] none)] none] none
  index := none

/-- Once medians are supported the offset is reported, to which there was an objection before
as well; then the median came first. -/
theorem verdict_ofFeatures_steadyColumn :
    steadyColumn.clause.isPlain = true ∧
    Includes (some ["percentile-aggregations"]) (some []) ∧
    steadyColumn.clause.operators = ["case", ">", "median", "offset"] ∧
    Validator.ofFeatures (some ["percentile-aggregations"]) steadyColumn =
      .problem ⟨"OFFSET is not supported in custom columns", true⟩ ∧
    (∃ before op after message, steadyColumn.clause.operators = before ++ op :: after ∧
      (∀ earlier ∈ before, Permits (some []) .expression earlier) ∧
      Objection (some []) .expression op message ∧
      Validator.ofFeatures (some []) steadyColumn = .problem ⟨message, true⟩) ∧
    Validator.ofFeatures (some []) steadyColumn =
      .problem ⟨"Median is not supported by this database", true⟩ ∧
    ∃ op ∈ steadyColumn.clause.operators,
      Objection (some []) .expression op "OFFSET is not supported in custom columns" := by
  have hroot : steadyColumn.clause.isPlain = true := rfl
  have hmore : Includes (some ["percentile-aggregations"]) (some []) := by
    intro listed' _
    exact ⟨[], rfl, fun feature hfeature => by cases hfeature⟩
  have hreported : Validator.ofFeatures (some ["percentile-aggregations"]) steadyColumn =
      .problem ⟨"OFFSET is not supported in custom columns", true⟩ := by decide +kernel
  obtain ⟨-, hfirst, hissues⟩ := verdict_ofFeatures (some []) steadyColumn hroot
  obtain ⟨hbefore, hrefused⟩ := hissues _ _ hmore hreported
  exact ⟨hroot, hmore, by decide +kernel, hreported, hfirst hrefused, by decide +kernel, hbefore⟩

end QueryFormula
