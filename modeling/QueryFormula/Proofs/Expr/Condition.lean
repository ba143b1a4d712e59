import QueryFormula.Condition
import QueryFormula.Proofs.Expr.Rearrange

/-!
# What comparisons with `true` do to a clause

A clause keeps its operator, and each of its operands stays, is a bound name and is compared
with `true`, or holds tests of which that can be said (`exists_compareConditions_clause`).
What becomes of a tree is proved from this.
-/

namespace QueryFormula

open QueryFormula.Expr

/-- A condition stays, or it is a bound name and is compared with `true`. -/
inductive BecomesCondition : Expr → Expr → Prop
  | stays (e : Expr) : BecomesCondition e e
  | compared (target : BoundRef) (origin : Option Span) :
      BecomesCondition (.bound target origin) (equalsTrue (.bound target origin))

/-- An operand is a condition, or its tests are. -/
inductive BecomesOperand : Expr → Expr → Prop
  | condition {x y : Expr} (h : BecomesCondition x y) : BecomesOperand x y
  | tests (ps : List (Expr × Expr)) (origin : Option Span) :
      BecomesOperand (.pairs ps origin)
        (.pairs (ps.map fun p => (conditionTest p.1, p.2)) origin)

theorem becomesCondition_conditionTest (e : Expr) : BecomesCondition e (conditionTest e) := by
  unfold conditionTest
  split
  · cases e with
    | bound target o => exact .compared target o
    | _ => contradiction
  · exact .stays e

theorem becomesOperand_conditionTests (e : Expr) : BecomesOperand e (conditionTests e) := by
  cases e with
  | pairs ps o => exact .tests ps o
  | _ => exact .condition (.stays _)

theorem becomesCondition_conditionOperands (s : Signature) (position : Nat) (xs : List Expr) :
    List.Forall₂ BecomesCondition xs (conditionOperands s position xs) := by
  induction xs generalizing position with
  | nil => exact .nil
  | cons x xs ih =>
      rw [conditionOperands]
      split
      · exact .cons (.stays x) (ih position)
      · refine .cons ?_ (ih (position + 1))
        split
        · rename_i hcondition
          obtain ⟨hbare, -⟩ := Bool.and_eq_true_iff.mp hcondition
          cases x with
          | bound target o => exact .compared target o
          | _ => cases hbare
        · exact .stays x

namespace BecomesOperand

variable {x y : Expr}

theorem isOptions (h : BecomesOperand x y) : y.isOptions = x.isOptions := by
  rcases h with ⟨_ | _⟩ | _ <;> rfl

theorem isPairs (h : BecomesOperand x y) : y.isPairs = x.isPairs := by
  rcases h with ⟨_ | _⟩ | _ <;> rfl

/-- What holds of names that are compared and is asked of tests and values alike. -/
theorem keeps {K : Expr → Prop}
    (hname : ∀ target o, K (.bound target o) → K (equalsTrue (.bound target o)))
    (hpairs : ∀ ps o, K (.pairs ps o) ↔ ∀ p ∈ ps, K p.1 ∧ K p.2)
    (h : BecomesOperand x y) (hx : K x) : K y := by
  have hcondition : ∀ {x y}, BecomesCondition x y → K x → K y := by
    rintro _ _ (_ | _) hx
    · exact hx
    · exact hname _ _ hx
  cases h with
  | condition h => exact hcondition h hx
  | tests ps o =>
      refine (hpairs _ o).mpr (List.forall_mem_map.mpr fun p hp => ?_)
      obtain ⟨htest, hvalue⟩ := (hpairs ps o).mp hx p hp
      exact ⟨hcondition (becomesCondition_conditionTest p.1) htest, hvalue⟩

theorem keepsAll {K : Expr → Prop}
    (hname : ∀ target o, K (.bound target o) → K (equalsTrue (.bound target o)))
    (hpairs : ∀ ps o, K (.pairs ps o) ↔ ∀ p ∈ ps, K p.1 ∧ K p.2)
    {xs ys : List Expr} (h : List.Forall₂ BecomesOperand xs ys) (hxs : ∀ x ∈ xs, K x) :
    ∀ y ∈ ys, K y := by
  intro y hy
  obtain ⟨x, hx, hbecomes⟩ := exists_mem_of_forall₂ h.flip hy
  exact hbecomes.keeps hname hpairs (hxs x hx)

end BecomesOperand

/-- **Comparisons in one clause.**  The operator stays, and so does the place of each operand. -/
theorem exists_conditionClause (op : String) (xs : List Expr) (o : Option Span) :
    ∃ ys, conditionClause op xs o = .clause op ys o ∧ List.Forall₂ BecomesOperand xs ys := by
  unfold conditionClause
  split
  · exact ⟨_, rfl, List.forall₂_map_right_iff.mpr
      (List.forall₂_same.mpr fun x _ => becomesOperand_conditionTests x)⟩
  · split
    · exact ⟨_, rfl, (becomesCondition_conditionOperands _ 0 xs).imp fun _ _ => .condition⟩
    · exact ⟨xs, rfl, List.forall₂_same.mpr fun x _ => .condition (.stays x)⟩

theorem rearranges_conditionClause : Rearranges conditionClause := fun op xs o =>
  (exists_conditionClause op xs o).imp fun _ h => h.1

theorem compareConditions_clause (op : String) (xs : List Expr) (o : Option Span) :
    compareConditions (.clause op xs o) = conditionClause op (xs.map compareConditions) o :=
  rearranges_conditionClause.bottomUp_clause op xs o

/-- **Comparisons at a clause**, behind those in its operands. -/
theorem exists_compareConditions_clause (op : String) (xs : List Expr) (o : Option Span) :
    ∃ ys, compareConditions (.clause op xs o) = .clause op ys o ∧
      List.Forall₂ BecomesOperand (xs.map compareConditions) ys := by
  rw [compareConditions_clause]
  exact exists_conditionClause op (xs.map compareConditions) o

/-- The operands behind the comparisons, for a statement that comparisons keep. -/
theorem forall₂_compareConditions {K : Expr → Prop} {xs ys : List Expr}
    (h : List.Forall₂ BecomesOperand (xs.map compareConditions) ys)
    (hkeeps : ∀ {x y}, BecomesOperand x y → K x → K y)
    (hxs : ∀ x ∈ xs, K x → K (compareConditions x)) :
    List.Forall₂ (fun x y => y.isOptions = x.isOptions ∧ (K x → K y)) xs ys := by
  have hboth := (List.forall₂_and_left _ _).mpr ⟨hxs, List.forall₂_map_left_iff.mp h⟩
  exact hboth.imp fun x y ⟨hx, hy⟩ =>
    ⟨hy.isOptions.trans (rearranges_conditionClause.isOptions x), fun hK => hkeeps hy (hx hK)⟩

/-- Grouped cases in a conditional: the columns among the tests are compared. -/
theorem conditionTests_compareConditions_pairs (ps : List (Expr × Expr)) (place : Option Span) :
    conditionTests (compareConditions (.pairs ps place)) =
      .pairs (ps.map fun p => (conditionTest (compareConditions p.1), compareConditions p.2))
        place := by
  rw [compareConditions, bottomUp_pairs, conditionTests, List.map_map]
  rfl

theorem conditionTests_compareConditions_options (es : List (String × Expr))
    (spot : Option Span) :
    conditionTests (compareConditions (.options es spot)) =
      .options (es.map fun e => (e.1, compareConditions e.2)) spot := by
  rw [compareConditions, bottomUp_options]
  rfl

/-- Options stay where they are among the operands. -/
theorem map_isOptions_compareConditions (xs : List Expr) :
    (xs.map compareConditions).map isOptions = xs.map isOptions := by
  rw [List.map_map]
  exact List.map_congr_left fun x _ => rearranges_conditionClause.isOptions x

theorem isOptions_conditionTests (e : Expr) : (conditionTests e).isOptions = e.isOptions :=
  (becomesOperand_conditionTests e).isOptions

theorem isPairs_conditionTests (e : Expr) : (conditionTests e).isPairs = e.isPairs :=
  (becomesOperand_conditionTests e).isPairs

/-- Comparisons at boolean positions leave options where they are. -/
theorem map_isOptions_conditionOperands (s : Signature) (position : Nat) (xs : List Expr) :
    (conditionOperands s position xs).map isOptions = xs.map isOptions := by
  have hkinds := (becomesCondition_conditionOperands s position xs).imp fun _ _ h =>
    (BecomesOperand.condition h).isOptions.symm
  rw [← List.forall₂_eq_eq_eq, List.forall₂_map_left_iff, List.forall₂_map_right_iff]
  exact hkinds.flip.imp fun _ _ h => h.symm

end QueryFormula
