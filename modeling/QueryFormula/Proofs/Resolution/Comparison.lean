import QueryFormula.Proofs.Catalog
import QueryFormula.Proofs.Expr.Condition
import QueryFormula.Proofs.Resolution.Governed

/-!
# Comparisons with `true` change nothing that is checked

What stands alone as a condition is put into a comparison.  The comparison is a
clause of the catalog with its two arguments, and an operand of the clause around
it as the condition was.  So a checked tree stays checked
(`checked_compareConditions`).
-/

namespace QueryFormula

open QueryFormula.Expr

/-- A comparison with `true` is checked if what is compared is. -/
theorem checked_equalsTrue {e : Expr} (h : Checked e) (hvalue : e.isOptions = false) :
    Checked e.equalsTrue := by
  obtain ⟨s, hs, hcount, hname⟩ : ∃ s, signature? "=" = some s ∧
      (s.variadic = false ∧ s.parameters.length = 2) ∧ s.name = "=" :=
    ⟨_, rfl, by decide, rfl⟩
  have hliteral : (ofBool true).isOptions = false := rfl
  have hpositional : positionalCount [e, ofBool true] = 2 := by
    simp [positionalCount, hvalue, hliteral]
  have hoptions : optionsCount [e, ofBool true] = 0 := by
    simp [optionsCount, hvalue, hliteral]
  rw [equalsTrue, checked_clause, operandsChecked_value hvalue, operandsChecked_value rfl]
  refine ⟨⟨s, hs, .fixed (hname ▸ rfl) hcount.1 (.inl (hpositional.trans hcount.2.symm)) ?_ ?_⟩,
    fun _ => h, fun _ => checked_literal _ _, operandsChecked_nil _ _⟩
  · rw [hoptions]
    exact Nat.zero_le 1
  · exact fun hne => absurd hoptions hne

/-- What becomes of an operand is checked if the operand was. -/
theorem BecomesOperand.checked {x y : Expr} (h : BecomesOperand x y) (hx : Checked x) : Checked y :=
  h.keeps (fun _ _ hname => checked_equalsTrue hname rfl) checked_pairs hx

/-- Operands that stay checked, one by one, are the checked operands of a clause; what lies in a
spare operand does not matter. -/
theorem Expr.OperandsChecked.imp {op : String} {position : Nat} {xs ys : List Expr}
    (hxy : List.Forall₂ (fun x y => y.isOptions = x.isOptions ∧ (Checked x → Checked y)) xs ys)
    (h : OperandsChecked op position xs) : OperandsChecked op position ys := by
  induction hxy generalizing position with
  | nil => exact h
  | @cons x y xs ys hfirst _ ih =>
      obtain ⟨hkind, hchecked⟩ := hfirst
      cases hoptions : x.isOptions with
      | true =>
          obtain ⟨hx, hrest⟩ := (operandsChecked_options hoptions).mp h
          exact (operandsChecked_options (hkind.trans hoptions)).mpr ⟨hchecked hx, ih hrest⟩
      | false =>
          obtain ⟨hx, hrest⟩ := (operandsChecked_value hoptions).mp h
          exact (operandsChecked_value (hkind.trans hoptions)).mpr
            ⟨fun hspare => hchecked (hx hspare), ih hrest⟩

/-- Groups stay groups. -/
theorem Signature.Admits.conditionTests {s : Signature} {xs : List Expr} (h : s.Admits xs)
    (hcond : isConditional s.name = true) :
    s.Admits ((xs.map compareConditions).map QueryFormula.conditionTests) := by
  cases h with
  | cases _ hany =>
      simp only [List.map_cons, List.map_nil, conditionTests_compareConditions_pairs]
      exact .cases hcond (by simpa using hany)
  | casesDefault _ hany =>
      simp only [List.map_cons, List.map_nil, conditionTests_compareConditions_pairs,
        conditionTests_compareConditions_options]
      exact .casesDefault hcond (by simpa using hany)
  | variadic hnot => cases hnot.symm.trans hcond
  | fixed hnot => cases hnot.symm.trans hcond

/-- **Comparisons keep a checked tree checked.** -/
theorem checked_compareConditions {e : Expr} (h : Checked e) : Checked (compareConditions e) := by
  induction e with
  | literal v o => simp [compareConditions]
  | reference k n o => exact absurd h (not_checked_reference k n o)
  | bound t o => simp [compareConditions]
  | clause op xs o ih =>
      obtain ⟨⟨s, hs, hadmits⟩, hoperands⟩ := (checked_clause op xs o).mp h
      have hname : s.name = op := (mem_catalog_of_signature? hs).2
      obtain ⟨ys, hys, hbecomes⟩ := exists_compareConditions_clause op xs o
      have hchecked : OperandsChecked op 0 ys :=
        hoperands.imp (forall₂_compareConditions hbecomes BecomesOperand.checked ih)
      rw [hys, checked_clause]
      refine ⟨⟨s, hs, ?_⟩, hchecked⟩
      rw [compareConditions_clause, conditionClause] at hys
      by_cases hcond : isConditional op = true
      · rw [if_pos hcond] at hys
        cases hys
        exact hadmits.conditionTests (hname ▸ hcond)
      · rw [if_neg hcond, hs] at hys
        cases hys
        refine hadmits.of_kinds (hname ▸ Bool.eq_false_iff.mpr hcond) ?_
        rw [map_isOptions_conditionOperands, map_isOptions_compareConditions]
  | options es o ih =>
      have hbelow := (checked_options es o).mp h
      rw [compareConditions, bottomUp_options, checked_options]
      exact List.forall_mem_map.mpr fun e he => ih e he (hbelow e he)
  | pairs ps o ih =>
      have hbelow := (checked_pairs ps o).mp h
      rw [compareConditions, bottomUp_pairs, checked_pairs]
      exact List.forall_mem_map.mpr fun p hp =>
        ⟨(ih p hp).1 (hbelow p hp).1, (ih p hp).2 (hbelow p hp).2⟩

end QueryFormula
