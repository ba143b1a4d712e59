import QueryFormula.Proofs.Expr.Nodes
import QueryFormula.Proofs.Lists

/-!
# Steps on clauses

A step of the normal form rebuilds a tree and touches nothing but clauses.  If
it touches no more of a clause than its operands (`Rearranges`), the tree keeps
its shape: `bottomUp_clause` says what becomes of a clause, and the kind, the
operator and the origin of every node stay.

A tree whose clauses are all left alone is left alone (`bottomUp_eq_self`).
-/

namespace QueryFormula.Expr

/-- A node already has its own origin. -/
@[simp] theorem adoptOrigin_origin (e : Expr) : e.adoptOrigin e.origin = e := by
  cases e <;> rename_i o <;> cases o <;> rfl

/-- Another origin changes no clause. -/
@[simp] theorem everyClause_adoptOrigin {L : String → List Expr → Prop} (e : Expr)
    (o : Option Span) : EveryClause L (e.adoptOrigin o) ↔ EveryClause L e := by
  cases e <;> rename_i p <;> cases p <;> simp [adoptOrigin, origin, setOrigin]

/-- What a step on clauses makes of a clause. -/
abbrev ClauseStep :=
  String → List Expr → Option Span → Expr

section Equations

variable (g : ClauseStep)

@[simp] theorem bottomUp_literal (v : Literal) (o : Option Span) :
    bottomUp (onClause g) (literal v o) = literal v o :=
  adoptOrigin_origin (literal v o)

@[simp] theorem bottomUp_reference (k : NameKind) (n : String) (o : Option Span) :
    bottomUp (onClause g) (reference k n o) = reference k n o :=
  adoptOrigin_origin (reference k n o)

@[simp] theorem bottomUp_bound (t : BoundRef) (o : Option Span) :
    bottomUp (onClause g) (bound t o) = bound t o :=
  adoptOrigin_origin (bound t o)

@[simp] theorem bottomUp_options (es : List (String × Expr)) (o : Option Span) :
    bottomUp (onClause g) (options es o) =
      options (es.map fun e => (e.1, bottomUp (onClause g) e.2)) o := by
  rw [← bottomUpEntries_eq_map]
  exact adoptOrigin_origin (options _ o)

@[simp] theorem bottomUp_pairs (ps : List (Expr × Expr)) (o : Option Span) :
    bottomUp (onClause g) (pairs ps o) =
      pairs (ps.map fun p => (bottomUp (onClause g) p.1, bottomUp (onClause g) p.2)) o := by
  rw [← bottomUpPairs_eq_map]
  exact adoptOrigin_origin (pairs _ o)

theorem bottomUp_clause_adopt (op : String) (xs : List Expr) (o : Option Span) :
    bottomUp (onClause g) (clause op xs o) =
      (g op (xs.map (bottomUp (onClause g))) o).adoptOrigin o := by
  rw [← bottomUpAll_eq_map]
  rfl

end Equations

/-- **Fixed trees.**  A step that leaves every clause of a tree alone leaves the
tree alone. -/
theorem bottomUp_eq_self {g : ClauseStep} {L : String → List Expr → Prop}
    (hL : ∀ op xs o, L op xs → g op xs o = clause op xs o) {e : Expr} (h : EveryClause L e) :
    bottomUp (onClause g) e = e := by
  induction e with
  | literal v o => exact bottomUp_literal g v o
  | reference k n o => exact bottomUp_reference g k n o
  | bound t o => exact bottomUp_bound g t o
  | clause op xs o ih =>
      obtain ⟨hroot, hbelow⟩ := (everyClause_clause op xs o).mp h
      have hxs : xs.map (bottomUp (onClause g)) = xs :=
        map_eq_self fun x hx => ih x hx (hbelow x hx)
      rw [bottomUp_clause_adopt, hxs, hL op xs o hroot]
      exact adoptOrigin_origin (clause op xs o)
  | options es o ih =>
      have hbelow := (everyClause_options es o).mp h
      have hes : (es.map fun e => (e.1, bottomUp (onClause g) e.2)) = es :=
        map_eq_self fun e he => Prod.ext rfl (ih e he (hbelow e he))
      rw [bottomUp_options, hes]
  | pairs ps o ih =>
      have hbelow := (everyClause_pairs ps o).mp h
      have hps : (ps.map fun p => (bottomUp (onClause g) p.1, bottomUp (onClause g) p.2)) = ps :=
        map_eq_self fun p hp =>
          Prod.ext ((ih p hp).1 (hbelow p hp).1) ((ih p hp).2 (hbelow p hp).2)
      rw [bottomUp_pairs, hps]

/-- **What a step does to all clauses.**  If it makes good trees of all clauses of
a sort, once their operands are good, then it makes a good tree of every tree of
that sort.  What is said of the operands may depend on what the walk keeps of every node. -/
theorem everyClause_bottomUp_keeping {g : ClauseStep} {L L' : String → List Expr → Prop}
    {K : Expr → Prop}
    (hclause : ∀ op xs o, L op xs →
      (∀ x ∈ xs, EveryClause L' (bottomUp (onClause g) x) ∧ (K x → K (bottomUp (onClause g) x))) →
      EveryClause L' (g op (xs.map (bottomUp (onClause g))) o) ∧
        (K (clause op xs o) → K ((g op (xs.map (bottomUp (onClause g))) o).adoptOrigin o)))
    (hoptions : ∀ es o, K (options es o) →
      K (options (es.map fun e => (e.1, bottomUp (onClause g) e.2)) o))
    (hpairs : ∀ ps o, K (pairs ps o) →
      K (pairs (ps.map fun p => (bottomUp (onClause g) p.1, bottomUp (onClause g) p.2)) o))
    {e : Expr} (h : EveryClause L e) :
    EveryClause L' (bottomUp (onClause g) e) ∧ (K e → K (bottomUp (onClause g) e)) := by
  induction e with
  | literal v o => simp
  | reference k n o => simp
  | bound t o => simp
  | clause op xs o ih =>
      obtain ⟨hroot, hbelow⟩ := (everyClause_clause op xs o).mp h
      rw [bottomUp_clause_adopt, everyClause_adoptOrigin]
      exact hclause op xs o hroot fun x hx => ih x hx (hbelow x hx)
  | options es o ih =>
      have hbelow := (everyClause_options es o).mp h
      rw [bottomUp_options, everyClause_options]
      exact ⟨List.forall_mem_map.mpr fun e he => (ih e he (hbelow e he)).1, hoptions es o⟩
  | pairs ps o ih =>
      have hbelow := (everyClause_pairs ps o).mp h
      rw [bottomUp_pairs, everyClause_pairs]
      exact ⟨List.forall_mem_map.mpr fun p hp =>
        ⟨((ih p hp).1 (hbelow p hp).1).1, ((ih p hp).2 (hbelow p hp).2).1⟩, hpairs ps o⟩

/-- The same, where nothing else is kept. -/
theorem everyClause_bottomUp {g : ClauseStep} {L L' : String → List Expr → Prop}
    (hstep : ∀ op xs o, L op xs → (∀ x ∈ xs.map (bottomUp (onClause g)), EveryClause L' x) →
      EveryClause L' (g op (xs.map (bottomUp (onClause g))) o))
    {e : Expr} (h : EveryClause L e) : EveryClause L' (bottomUp (onClause g) e) := by
  refine (everyClause_bottomUp_keeping (K := fun _ => True) (fun op xs o hroot hxs => ?_)
    (fun _ _ _ => trivial) (fun _ _ _ => trivial) h).1
  exact ⟨hstep op xs o hroot (List.forall_mem_map.mpr fun x hx => (hxs x hx).1), fun _ => trivial⟩

/-- The step changes no more of a clause than its operands. -/
def Rearranges (g : ClauseStep) : Prop :=
  ∀ op xs o, ∃ ys, g op xs o = clause op ys o

namespace Rearranges

variable {g : ClauseStep}

/-- The clause behind the step, over rebuilt operands. -/
theorem bottomUp_clause (hg : Rearranges g) (op : String) (xs : List Expr) (o : Option Span) :
    bottomUp (onClause g) (clause op xs o) = g op (xs.map (bottomUp (onClause g))) o := by
  obtain ⟨ys, hys⟩ := hg op (xs.map (bottomUp (onClause g))) o
  rw [bottomUp_clause_adopt, hys]
  exact adoptOrigin_origin (clause op ys o)

/-- **A node keeps its kind.**  Whatever can be told of a node without its
operands, its entries and its cases is the same of the rebuilt node. -/
theorem keeps (hg : Rearranges g) {α : Type} (view : Expr → α)
    (hclause : ∀ op xs ys o, view (clause op xs o) = view (clause op ys o))
    (hoptions : ∀ es fs o, view (options es o) = view (options fs o))
    (hpairs : ∀ ps qs o, view (pairs ps o) = view (pairs qs o)) (e : Expr) :
    view (bottomUp (onClause g) e) = view e := by
  cases e with
  | literal v o => rw [bottomUp_literal]
  | reference k n o => rw [bottomUp_reference]
  | bound t o => rw [bottomUp_bound]
  | clause op xs o =>
      obtain ⟨ys, hys⟩ := hg op (xs.map (bottomUp (onClause g))) o
      rw [hg.bottomUp_clause, hys]
      exact hclause op ys xs o
  | options es o =>
      rw [bottomUp_options]
      exact hoptions _ es o
  | pairs ps o =>
      rw [bottomUp_pairs]
      exact hpairs _ ps o

theorem isLiteral (hg : Rearranges g) (e : Expr) :
    (bottomUp (onClause g) e).isLiteral = e.isLiteral :=
  hg.keeps Expr.isLiteral (fun _ _ _ _ => rfl) (fun _ _ _ => rfl) (fun _ _ _ => rfl) e

theorem isOptions (hg : Rearranges g) (e : Expr) :
    (bottomUp (onClause g) e).isOptions = e.isOptions :=
  hg.keeps Expr.isOptions (fun _ _ _ _ => rfl) (fun _ _ _ => rfl) (fun _ _ _ => rfl) e

theorem isPairs (hg : Rearranges g) (e : Expr) :
    (bottomUp (onClause g) e).isPairs = e.isPairs :=
  hg.keeps Expr.isPairs (fun _ _ _ _ => rfl) (fun _ _ _ => rfl) (fun _ _ _ => rfl) e

theorem origin (hg : Rearranges g) (e : Expr) :
    (bottomUp (onClause g) e).origin = e.origin :=
  hg.keeps Expr.origin (fun _ _ _ _ => rfl) (fun _ _ _ => rfl) (fun _ _ _ => rfl) e

end Rearranges

/-- Among the operands that the step writes there is no clause that was not
there before. -/
def AddsNoClause (g : ClauseStep) : Prop :=
  ∀ (L : String → List Expr → Prop) (op : String) (xs : List Expr) (o : Option Span)
    (ys : List Expr), g op xs o = clause op ys o →
      (∀ x ∈ xs, EveryClause L x) → ∀ y ∈ ys, EveryClause L y

/-- A step that rearranges operands and turns each clause of one sort into a
clause of another, over operands that it has already been through, turns a tree
of the first sort into a tree of the second. -/
theorem EveryClause.rearrange {g : ClauseStep} (hg : Rearranges g) (hadd : AddsNoClause g)
    {L L' : String → List Expr → Prop}
    (hstep : ∀ op xs o ys, L op xs →
      g op (xs.map (bottomUp (onClause g))) o = clause op ys o → L' op ys)
    {e : Expr} (h : EveryClause L e) : EveryClause L' (bottomUp (onClause g) e) := by
  refine everyClause_bottomUp (fun op xs o hroot hxs => ?_) h
  obtain ⟨ys, hys⟩ := hg op (xs.map (bottomUp (onClause g))) o
  rw [hys, everyClause_clause]
  exact ⟨hstep op xs o ys hroot hys, hadd L' op _ o ys hys hxs⟩

end QueryFormula.Expr
