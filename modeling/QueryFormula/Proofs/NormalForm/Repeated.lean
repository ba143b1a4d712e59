import QueryFormula.Proofs.NormalForm.Idempotence

/-!
# Each step, taken again

The steps of the normal form do their work the first time.  A step that
rearranges operands is done with a tree when it has nothing to do at what it made
of any clause (`StepsOnce.bottomUp_bottomUp`); where a negation is folded the
clause below it comes up instead, and that `not` is gone for good
(`unnegated_foldNegations`).

This is about any tree, also about trees that no source reads as.
-/

namespace QueryFormula

open QueryFormula.Expr

/-! ### Steps that rearrange operands -/

/-- At a clause that the step made it has nothing left to do. -/
def StepsOnce (g : ClauseStep) : Prop :=
  ∀ op xs ys o p, g op xs o = .clause op ys o → g op ys p = .clause op ys p

/-- **One walk is enough.**  A step with nothing left to do at any clause it made
has nothing left to do in the tree it made. -/
theorem StepsOnce.bottomUp_bottomUp {g : ClauseStep} (honce : StepsOnce g)
    (hg : Arranges g) (e : Expr) :
    bottomUp (onClause g) (bottomUp (onClause g) e) = bottomUp (onClause g) e := by
  have hidle : EveryClause (fun op xs => ∀ p, g op xs p = .clause op xs p)
      (bottomUp (onClause g) e) :=
    hg.everyClause (everyClause_true e) fun op _ o ys _ hys p => honce op _ ys o p hys
  exact bottomUp_eq_self (fun _ _ o h => h o) hidle

theorem stepsOnce_optionsOfShorthand : StepsOnce optionsOfShorthand :=
  fun _ _ _ _ p hys => optionsOfShorthand_of_not (trailsShorthand_optionsOfShorthand hys) p

theorem stepsOnce_offsetOptions : StepsOnce offsetOptions := by
  intro op xs ys o p hys
  have hlead : ¬(op = "offset" ∧ !leadsWithOptions ys) := by
    unfold offsetOptions at hys
    split at hys
    · -- the options that the step wrote are in front now
      cases hys
      exact fun h => Bool.false_ne_true h.2
    · cases hys
      assumption
  rw [offsetOptions, if_neg hlead]

theorem stepsOnce_groupConditional : StepsOnce groupConditional := by
  intro op xs ys o p hys
  have hgrouped : ¬(isConditional op && !ys.head?.any Expr.isPairs) = true := by
    unfold groupConditional at hys
    split at hys
    · cases hys
      rw [head?_groupCases, Bool.not_true, Bool.and_false]
      exact Bool.false_ne_true
    · cases hys
      assumption
  rw [groupConditional, if_neg hgrouped]

theorem stepsOnce_leadWithOptions : StepsOnce leadWithOptions := fun _ _ _ _ p hys =>
  (hoisted_of_leadWithOptions hys).inPlace.leadWithOptions_eq p

/-! ### All steps -/

/-- Folding leaves no `not` to fold. -/
theorem foldNegations_foldNegations (e : Expr) :
    foldNegations (foldNegations e) = foldNegations e :=
  bottomUp_eq_self (fun _ _ _ h => shortenNegation_of_unnegated h) (unnegated_foldNegations e)

/-- A wrapped literal is a clause. -/
theorem wrapLiteral_wrapLiteral (e : Expr) : wrapLiteral (wrapLiteral e) = wrapLiteral e := by
  by_cases hliteral : e.isLiteral = true
  · rw [wrapLiteral, wrapLiteral, if_pos hliteral]
    rfl
  · have hstays := wrapLiteral_of_not (Bool.eq_false_iff.mpr hliteral)
    rw [hstays, hstays]

/-- **Every step is idempotent**, on every tree and up to the last origin. -/
theorem normalization_idempotent {step : Expr → Expr} (hstep : step ∈ normalizations)
    (e : Expr) : step (step e) = step e := by
  simp only [normalizations, List.mem_cons, List.not_mem_nil, or_false] at hstep
  rcases hstep with rfl | rfl | rfl | rfl | rfl | rfl
  · exact stepsOnce_optionsOfShorthand.bottomUp_bottomUp arranges_optionsOfShorthand e
  · exact foldNegations_foldNegations e
  · exact stepsOnce_offsetOptions.bottomUp_bottomUp arranges_offsetOptions e
  · exact stepsOnce_groupConditional.bottomUp_bottomUp arranges_groupConditional e
  · exact stepsOnce_leadWithOptions.bottomUp_bottomUp arranges_leadWithOptions e
  · exact wrapLiteral_wrapLiteral e

/-- Three `not` around a test for null: folding leaves the opposite test, and
leaves that alone. -/
theorem foldNegations_three_nots :
    foldNegations ∈ normalizations ∧
    let test := Expr.clause "is-null" [.reference .dimension "A" none] none
    let tree := Expr.clause "not" [.clause "not" [.clause "not" [test] none] none] none
    foldNegations tree = .clause "not-null" [.reference .dimension "A" none] none ∧
    foldNegations (foldNegations tree) = foldNegations tree :=
  have hmem : foldNegations ∈ normalizations := .tail _ (.head _)
  ⟨hmem, rfl, normalization_idempotent hmem _⟩

end QueryFormula
