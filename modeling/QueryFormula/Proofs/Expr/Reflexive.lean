import QueryFormula.Proofs.Expr.Condition

/-!
# Trees that equal themselves

Trees are compared by value, and a double that stands for no number equals nothing, itself
included.  A tree without one equals itself (`Expr.IsReflexive`), and comparing its
conditions with `true` puts none in (`isReflexive_compareConditions`).
-/

namespace QueryFormula

/-! ### Constants -/

/-- The constant equals itself, which all do but a double that stands for no number. -/
def Literal.IsReflexive (value : Literal) : Prop :=
  value.sameValue value = true

theorem Literal.isReflexive_text (s : String) : (text s).IsReflexive :=
  beq_self_eq_true s

theorem Literal.isReflexive_boolean (b : Bool) : (boolean b).IsReflexive :=
  beq_self_eq_true b

theorem Literal.isReflexive_number (x : Decimal) : (number x).IsReflexive :=
  beq_self_eq_true (x.numerator * (Nat.pow 10 x.scale : Nat))

theorem Literal.isReflexive_float {x : Double} : (float x).IsReflexive ↔ x.isNaN = false := by
  rw [IsReflexive, sameValue, Double.sameValue_self, Bool.not_eq_true']

theorem Literal.IsReflexive.negate {x : Double} (h : (float x).IsReflexive) :
    (float x.negate).IsReflexive := by
  rw [isReflexive_float, Double.isNaN, Double.magnitude_negate]
  exact isReflexive_float.mp h

open QueryFormula.Expr

/-! ### Trees -/

namespace Expr

/-- The tree equals itself, as it does unless a double in it is no number. -/
def IsReflexive (e : Expr) : Prop :=
  e.sameTree e = true

@[simp] theorem isReflexive_literal (v : Literal) (o : Option Span) :
    (literal v o).IsReflexive ↔ v.IsReflexive :=
  Iff.rfl

@[simp] theorem isReflexive_reference (k : NameKind) (n : String) (o : Option Span) :
    (reference k n o).IsReflexive := by
  simp [IsReflexive, sameTree]

@[simp] theorem isReflexive_bound (t : BoundRef) (o : Option Span) :
    (bound t o).IsReflexive := by
  simp [IsReflexive, sameTree]

@[simp] theorem isReflexive_clause (op : String) (xs : List Expr) (o : Option Span) :
    (clause op xs o).IsReflexive ↔ ∀ x ∈ xs, x.IsReflexive := by
  have hall : sameTrees xs xs = true ↔ ∀ x ∈ xs, x.IsReflexive := by
    induction xs with
    | nil => simp [sameTrees]
    | cons x xs ih => simp [sameTrees, ih, IsReflexive]
  rw [IsReflexive, sameTree, beq_self_eq_true, Bool.true_and]
  exact hall

@[simp] theorem isReflexive_options (es : List (String × Expr)) (o : Option Span) :
    (options es o).IsReflexive ↔ ∀ e ∈ es, e.2.IsReflexive := by
  have hall : sameEntries es es = true ↔ ∀ e ∈ es, e.2.IsReflexive := by
    induction es with
    | nil => simp [sameEntries]
    | cons e es ih => rw [sameEntries, List.forall_mem_cons, ← ih]; simp [IsReflexive]
  rw [← hall]
  rfl

@[simp] theorem isReflexive_pairs (ps : List (Expr × Expr)) (o : Option Span) :
    (pairs ps o).IsReflexive ↔ ∀ p ∈ ps, p.1.IsReflexive ∧ p.2.IsReflexive := by
  have hall : samePairs ps ps = true ↔ ∀ p ∈ ps, p.1.IsReflexive ∧ p.2.IsReflexive := by
    induction ps with
    | nil => simp [samePairs]
    | cons p ps ih => rw [samePairs, List.forall_mem_cons, ← ih]; simp [IsReflexive]
  rw [← hall]
  rfl

@[simp] theorem isReflexive_ofBool (b : Bool) : (ofBool b).IsReflexive :=
  Literal.isReflexive_boolean b

@[simp] theorem isReflexive_adoptOrigin (e : Expr) (o : Option Span) :
    (e.adoptOrigin o).IsReflexive ↔ e.IsReflexive := by
  cases e <;> rename_i p <;> cases p <;> simp [adoptOrigin, origin, setOrigin]

@[simp] theorem isReflexive_equalsTrue (e : Expr) : e.equalsTrue.IsReflexive ↔ e.IsReflexive := by
  simp [equalsTrue]

end Expr

/-! ### Comparisons with `true` -/

theorem isReflexive_compareConditions {e : Expr} (h : e.IsReflexive) :
    (compareConditions e).IsReflexive := by
  induction e with
  | literal v o => rwa [compareConditions, bottomUp_literal]
  | reference k n o => rwa [compareConditions, bottomUp_reference]
  | bound t o => rwa [compareConditions, bottomUp_bound]
  | clause op xs o ih =>
      have hxs := (isReflexive_clause op xs o).mp h
      obtain ⟨ys, hys, hoperands⟩ := exists_compareConditions_clause op xs o
      rw [hys, isReflexive_clause]
      exact BecomesOperand.keepsAll (fun t o => (isReflexive_equalsTrue _).mpr) isReflexive_pairs
        hoperands (List.forall_mem_map.mpr fun x hx => ih x hx (hxs x hx))
  | options es o ih =>
      have hes := (isReflexive_options es o).mp h
      rw [compareConditions, bottomUp_options]
      exact (isReflexive_options _ o).mpr
        (List.forall_mem_map.mpr fun e he => ih e he (hes e he))
  | pairs ps o ih =>
      have hps := (isReflexive_pairs ps o).mp h
      rw [compareConditions, bottomUp_pairs]
      exact (isReflexive_pairs _ o).mpr (List.forall_mem_map.mpr fun p hp =>
        ⟨(ih p hp).1 (hps p hp).1, (ih p hp).2 (hps p hp).2⟩)

end QueryFormula
