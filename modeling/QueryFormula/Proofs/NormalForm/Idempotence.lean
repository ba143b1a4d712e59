import QueryFormula.Compile
import QueryFormula.Proofs.NormalForm.Negation
import QueryFormula.Proofs.NormalForm.Shorthand
import QueryFormula.Proofs.Result

/-!
# What a second normalization does

All steps but the first leave a normal form alone, for none of its clauses has
anything in it for them (`Settled`).  The first step may still find work: a
shorthand in last place comes to light behind one that has become options and
moved to the front, or out of a double negation.

`normalForm_normalForm` says exactly when a normal form is its own normal form,
and that there is nothing left to do after the second time.
-/

namespace QueryFormula

open QueryFormula.Expr

/-! ### Settled clauses -/

/-- No step but the first has anything to do at a clause with these operands. -/
structure Settled (op : String) (operands : List Expr) : Prop where
  negation : Unnegated op operands
  offset : op = "offset" → leadsWithOptions operands = true
  conditional : isConditional op = true → operands.head?.any Expr.isPairs = true
  search : isSearch op = true → leadsWithOptions operands = true ∨ operands.length ≤ 2 ∨
    operands.length = 3 ∧ operands.getLast?.any Expr.isOptions = true

/-- The operands are where the arranging steps put them. -/
theorem Settled.arrangeClause_eq {op : String} {xs : List Expr} (h : Settled op xs)
    (o : Option Span) : arrangeClause op xs o = .clause op xs o := by
  unfold arrangeClause
  split
  · rename_i hop
    simp [offsetOptions, h.offset hop]
  · split
    · rename_i hcond
      simp [groupConditional, h.conditional hcond]
    · exact OptionsInPlace.leadWithOptions_eq h.search o

/-- Arranging has no second part in it: options lead where they should, and
groups stand where they should. -/
theorem settled_of_arrangeClause {op : String} {xs ys : List Expr} {o : Option Span}
    (hneg : Unnegated op ys) (h : arrangeClause op xs o = .clause op ys o) : Settled op ys where
  negation := hneg
  offset hop := by
    subst hop
    rw [arrangeClause, if_pos rfl, offsetOptions] at h
    split at h
    · cases h
      rfl
    · cases h
      simp_all
  conditional hcond := by
    have hoffset : op ≠ "offset" := by
      rintro rfl
      cases hcond
    rw [arrangeClause, if_neg hoffset, if_pos hcond, groupConditional] at h
    split at h
    · cases h
      exact head?_groupCases xs
    · cases h
      simp_all
  search hsearch := by
    have hoffset : op ≠ "offset" := by
      rintro rfl
      cases isSearch_offset.symm.trans hsearch
    have hcond : ¬isConditional op = true := by
      intro hcond
      cases (isSearch_of_isConditional hcond).symm.trans hsearch
    rw [arrangeClause, if_neg hoffset, if_neg hcond] at h
    exact (hoisted_of_leadWithOptions h).inPlace hsearch

/-! ### The whole normal form -/

theorem arrangeClause_not (xs : List Expr) (o : Option Span) :
    arrangeClause "not" xs o = .clause "not" xs o := by
  rw [arrangeClause, if_neg (by decide), if_neg (by decide),
    leadWithOptions_of_not rfl]

/-- An arranged tree is settled if no `not` in it could go further down. -/
theorem settled_arrange {e : Expr} (h : EveryClause Unnegated e) :
    EveryClause Settled (arrange e) :=
  arranges_arrangeClause.everyClause h fun _ _ _ _ hneg hys => settled_of_arrangeClause
    ((hneg.map rearranges_arrangeClause arrangeClause_not).step arrangeClause_not hys) hys

theorem wrapLiteral_of_not {e : Expr} (h : e.isLiteral = false) : wrapLiteral e = e := by
  rw [wrapLiteral, h, if_neg Bool.false_ne_true]

/-- **Normal forms are settled.**  No clause of a normal form has anything in it
for the later steps, and the formula is no literal. -/
theorem settled_normalForm (e : Expr) :
    EveryClause Settled (normalForm e) ∧ (normalForm e).isLiteral = false := by
  have hsettled := settled_arrange (unnegated_foldNegations (spellOutShorthands e))
  rw [normalForm_eq]
  generalize arrange (foldNegations (spellOutShorthands e)) = n at hsettled
  by_cases hliteral : n.isLiteral = true
  · rw [wrapLiteral, if_pos hliteral]
    refine ⟨(everyClause_clause _ _ _).mpr ⟨?_, List.forall_mem_singleton.mpr hsettled⟩, rfl⟩
    exact ⟨fun h => absurd h (by decide), fun h => absurd h (by decide),
      fun h => absurd h (by decide), fun _ => .inr (.inl (Nat.le_succ 1))⟩
  · rw [wrapLiteral, if_neg hliteral]
    exact ⟨hsettled, Bool.eq_false_iff.mpr hliteral⟩

/-- On a settled tree only the first step may find something. -/
theorem normalForm_of_settled {e : Expr} (h : EveryClause Settled (spellOutShorthands e))
    (hliteral : e.isLiteral = false) : normalForm e = spellOutShorthands e := by
  have hfold : foldNegations (spellOutShorthands e) = spellOutShorthands e :=
    bottomUp_eq_self (fun _ _ _ hs => shortenNegation_of_unnegated hs.negation) h
  have harrange : arrange (spellOutShorthands e) = spellOutShorthands e :=
    bottomUp_eq_self (fun _ _ o hs => hs.arrangeClause_eq o) h
  have hroot : (spellOutShorthands e).isLiteral = false :=
    (rearranges_optionsOfShorthand.isLiteral e).trans hliteral
  rw [normalForm_eq, hfold, harrange, wrapLiteral_of_not hroot]

/-! ### The second time -/

/-- Operands of the same kinds are as settled. -/
theorem Settled.map {g : ClauseStep} (hg : Rearranges g)
    (hidle : ∀ xs o, g "not" xs o = .clause "not" xs o) {op : String} {xs : List Expr}
    (h : Settled op xs) : Settled op (xs.map (bottomUp (onClause g))) where
  negation := h.negation.map hg hidle
  offset hop := (leadsWithOptions_map hg xs).trans (h.offset hop)
  conditional hcond := (leadsWithPairs_map hg xs).trans (h.conditional hcond)
  search hsearch := by
    have hlast : (xs.map (bottomUp (onClause g))).getLast?.any Expr.isOptions =
        xs.getLast?.any Expr.isOptions := by
      rw [List.getLast?_map]
      cases xs.getLast? with
      | none => rfl
      | some x => exact hg.isOptions x
    rw [leadsWithOptions_map hg, List.length_map, hlast]
    exact h.search hsearch

/-- Options in the place of a shorthand unsettle nothing: they stand behind
options, or they are the third operand. -/
theorem Settled.optionsOfShorthand {op : String} {xs ys : List Expr} {o : Option Span}
    (h : Settled op xs) (hys : optionsOfShorthand op xs o = .clause op ys o) :
    Settled op ys := by
  by_cases htrails : trailsShorthand op xs = true
  · obtain ⟨s, zs, x, c, hs, htakes, hcount, rfl, hc, hstep⟩ :=
      optionsOfShorthand_of_trails htrails o
    obtain ⟨hnot, hoffset, hcond⟩ := name_of_takesOptions hs htakes
    obtain ⟨hliteral, hoptions⟩ := isOptions_of_shorthand hc
    rw [hstep] at hys
    injection hys with _ hys
    subst hys
    refine ⟨fun h => absurd h hnot, fun h => absurd h hoffset, fun h => ?_, fun hsearch => ?_⟩
    · rw [hcond] at h
      cases h
    · rw [two_parameters_of_isSearch hs hsearch] at hcount
      rcases h.search hsearch with hlead | hfew
      · left
        cases zs with
        | nil => cases hcount
        | cons z zs => exact hlead
      · right
        right
        simp only [List.length_append, List.length_singleton, List.getLast?_concat,
          Option.any_some, hoptions, and_true] at hfew ⊢
        omega
  · rw [optionsOfShorthand_of_not (Bool.eq_false_iff.mpr htrails)] at hys
    cases hys
    exact h

theorem settled_spellOutShorthands {e : Expr} (h : EveryClause Settled e) :
    EveryClause Settled (spellOutShorthands e) :=
  arranges_optionsOfShorthand.everyClause h fun _ _ _ _ hs hys =>
    (hs.map rearranges_optionsOfShorthand optionsOfShorthand_not).optionsOfShorthand hys

/-- **The second normalization** is its first step. -/
theorem normalForm_normalForm_eq (e : Expr) :
    normalForm (normalForm e) = spellOutShorthands (normalForm e) := by
  obtain ⟨hsettled, hliteral⟩ := settled_normalForm e
  exact normalForm_of_settled (settled_spellOutShorthands hsettled) hliteral

/-- **Normalizing twice.**  A normal form is its own normal form exactly if it
leaves no shorthand in last place, behind the declared arguments of a clause with
options; if it leaves one, the two are different trees.  Nothing is left to do
after the second time. -/
theorem normalForm_normalForm (e : Expr) :
    (normalForm (normalForm e) = normalForm e ↔ NoShorthandLeft (normalForm e)) ∧
    ((normalForm (normalForm e)).sameTree (normalForm e) = true →
      NoShorthandLeft (normalForm e)) ∧
    normalForm (normalForm (normalForm e)) = normalForm (normalForm e) := by
  have htwice := normalForm_normalForm_eq e
  have hnone := noShorthandLeft_spellOutShorthands (normalForm e)
  refine ⟨⟨fun h => ?_, fun h => ?_⟩, fun h => ?_, ?_⟩
  · rw [htwice] at h
    exact h ▸ hnone
  · rw [htwice, spellOutShorthands_of_noShorthandLeft h]
  · rw [htwice] at h
    exact noShorthandLeft_of_sameTree h
  · rw [normalForm_normalForm_eq (normalForm e), htwice,
      spellOutShorthands_of_noShorthandLeft hnone]

/-- Of two shorthands behind two values the second is left when the first
normalization has moved the options to the front. -/
theorem normalForm_two_shorthands :
    ∃ tree, readTree "contains([A], \"b\", \"case-insensitive\", \"case-insensitive\")" =
        .ok tree ∧ (normalForm (normalForm tree)).sameTree (normalForm tree) = false := by
  obtain ⟨tree, htree, hdiffer⟩ := exists_ok_of_any
    (show (readTree "contains([A], \"b\", \"case-insensitive\", \"case-insensitive\")").toOption.any
      (fun tree => !(normalForm (normalForm tree)).sameTree (normalForm tree)) = true by
        decide +kernel)
  exact ⟨tree, htree, (Bool.not_eq_true' _).mp hdiffer⟩

end QueryFormula
