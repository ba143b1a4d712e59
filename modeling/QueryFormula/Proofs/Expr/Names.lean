import QueryFormula.Proofs.Expr.Rearrange

/-!
# The names of a tree

`Expr.EveryName` says something of every name of a tree that is not bound, and of the
target of every name that is.  Of a tree that is about to be resolved it is to say that
nothing is bound: resolution passes over bound names.

A step that writes no name of its own keeps such a statement
(`EveryName.bottomUp`).  `Expr.names` and `Expr.targets` list what it speaks of.
-/

namespace QueryFormula.Expr

/-- The node, if it is a name, is as required, or its target is if it is bound. -/
def NameHas (P : String → Prop) (Q : BoundRef → Prop) : Expr → Prop
  | reference _ name _ => P name
  | bound target _ => Q target
  | _ => True

/-- Every name of the tree is as required, and so is every target. -/
def EveryName (P : String → Prop) (Q : BoundRef → Prop) (e : Expr) : Prop :=
  ∀ x ∈ e.nodes, NameHas P Q x

variable {P : String → Prop} {Q : BoundRef → Prop}

@[simp] theorem everyName_literal (v : Literal) (o : Option Span) :
    EveryName P Q (literal v o) := by
  simp [EveryName, nodes, NameHas]

@[simp] theorem everyName_reference (k : NameKind) (n : String) (o : Option Span) :
    EveryName P Q (reference k n o) ↔ P n := by
  simp [EveryName, nodes, NameHas]

@[simp] theorem everyName_bound (t : BoundRef) (o : Option Span) :
    EveryName P Q (bound t o) ↔ Q t := by
  simp [EveryName, nodes, NameHas]

@[simp] theorem everyName_clause (op : String) (xs : List Expr) (o : Option Span) :
    EveryName P Q (clause op xs o) ↔ ∀ x ∈ xs, EveryName P Q x := by
  simp only [EveryName, nodes, nodesOfAll_eq_flatMap, List.forall_mem_cons,
    List.forall_mem_flatMap, NameHas, true_and]

@[simp] theorem everyName_options (es : List (String × Expr)) (o : Option Span) :
    EveryName P Q (options es o) ↔ ∀ e ∈ es, EveryName P Q e.2 := by
  simp only [EveryName, nodes, nodesOfEntries_eq_flatMap, List.forall_mem_cons,
    List.forall_mem_flatMap, NameHas, true_and]

@[simp] theorem everyName_pairs (ps : List (Expr × Expr)) (o : Option Span) :
    EveryName P Q (pairs ps o) ↔ ∀ p ∈ ps, EveryName P Q p.1 ∧ EveryName P Q p.2 := by
  simp only [EveryName, nodes, nodesOfPairs_eq_flatMap, List.forall_mem_cons,
    List.forall_mem_flatMap, List.forall_mem_append, NameHas, true_and]

theorem EveryName.mono {P' : String → Prop} {Q' : BoundRef → Prop} (hP : ∀ n, P n → P' n)
    (hQ : ∀ t, Q t → Q' t) {e : Expr} (h : EveryName P Q e) : EveryName P' Q' e := by
  intro x hx
  have hx' := h x hx
  cases x with
  | reference k n o => exact hP n hx'
  | bound t o => exact hQ t hx'
  | _ => trivial

/-- Another origin changes no name. -/
@[simp] theorem everyName_adoptOrigin (e : Expr) (o : Option Span) :
    EveryName P Q (e.adoptOrigin o) ↔ EveryName P Q e := by
  cases e <;> rename_i p <;> cases p <;> simp [adoptOrigin, origin, setOrigin]

/-- The name, if the node is one that is not bound. -/
def name? : Expr → Option String
  | reference _ name _ => some name
  | _ => none

/-- The target, if the node is a bound name. -/
def target? : Expr → Option BoundRef
  | bound target _ => some target
  | _ => none

/-- The names of the tree that are not bound. -/
def names (e : Expr) : List String :=
  e.nodes.filterMap name?

/-- The targets of the names of the tree that are bound. -/
def targets (e : Expr) : List BoundRef :=
  e.nodes.filterMap target?

/-- What holds of every name holds of the names and of the targets. -/
theorem everyName_iff {e : Expr} :
    EveryName P Q e ↔ (∀ n ∈ e.names, P n) ∧ ∀ t ∈ e.targets, Q t := by
  simp only [EveryName, names, targets, List.mem_filterMap]
  constructor
  · intro h
    refine ⟨?_, ?_⟩
    · rintro n ⟨x, hx, hname⟩
      cases x with
      | reference k m o =>
          cases hname
          exact h _ hx
      | _ => cases hname
    · rintro t ⟨x, hx, htarget⟩
      cases x with
      | bound t' o =>
          cases htarget
          exact h _ hx
      | _ => cases htarget
  · rintro ⟨hnames, htargets⟩ x hx
    cases x with
    | reference k n o => exact hnames n ⟨_, hx, rfl⟩
    | bound t o => exact htargets t ⟨_, hx, rfl⟩
    | _ => trivial

/-- What holds of every name holds of the names in the operands of every clause. -/
theorem EveryName.everyClause {e : Expr} (h : EveryName P Q e) :
    EveryClause (fun _ operands => ∀ x ∈ operands, EveryName P Q x) e := by
  induction e with
  | literal v o => exact everyClause_literal v o
  | reference k n o => exact everyClause_reference k n o
  | bound t o => exact everyClause_bound t o
  | clause op xs o ih =>
      have hbelow := (everyName_clause op xs o).mp h
      exact (everyClause_clause op xs o).mpr ⟨hbelow, fun x hx => ih x hx (hbelow x hx)⟩
  | options es o ih =>
      have hbelow := (everyName_options es o).mp h
      exact (everyClause_options es o).mpr fun e he => ih e he (hbelow e he)
  | pairs ps o ih =>
      have hbelow := (everyName_pairs ps o).mp h
      exact (everyClause_pairs ps o).mpr fun p hp =>
        ⟨(ih p hp).1 (hbelow p hp).1, (ih p hp).2 (hbelow p hp).2⟩

/-- The step writes no name that was not there before. -/
def AddsNoName (g : ClauseStep) : Prop :=
  ∀ (P : String → Prop) (Q : BoundRef → Prop) (op : String) (xs : List Expr) (o : Option Span),
    (∀ x ∈ xs, EveryName P Q x) → EveryName P Q (g op xs o)

/-- Such a step keeps what is said of the names of a tree. -/
theorem EveryName.bottomUp {g : ClauseStep} (hadd : AddsNoName g) {e : Expr}
    (h : EveryName P Q e) : EveryName P Q (bottomUp (onClause g) e) := by
  induction e with
  | literal v o => rw [bottomUp_literal]; exact everyName_literal v o
  | reference k n o => rwa [bottomUp_reference]
  | bound t o => rwa [bottomUp_bound]
  | clause op xs o ih =>
      have hbelow := (everyName_clause op xs o).mp h
      rw [bottomUp_clause_adopt, everyName_adoptOrigin]
      exact hadd P Q op _ o (List.forall_mem_map.mpr fun x hx => ih x hx (hbelow x hx))
  | options es o ih =>
      have hbelow := (everyName_options es o).mp h
      rw [bottomUp_options, everyName_options]
      exact List.forall_mem_map.mpr fun e he => ih e he (hbelow e he)
  | pairs ps o ih =>
      have hbelow := (everyName_pairs ps o).mp h
      rw [bottomUp_pairs, everyName_pairs]
      exact List.forall_mem_map.mpr fun p hp =>
        ⟨(ih p hp).1 (hbelow p hp).1, (ih p hp).2 (hbelow p hp).2⟩

end QueryFormula.Expr
