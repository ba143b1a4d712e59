import QueryFormula.Proofs.Resolution.Comparison
import QueryFormula.Proofs.Resolution.Typing

/-!
# Comparisons with `true` keep trees typed

What stands alone as a condition may stand in a comparison as well, and the
comparison may stand where the condition stood (`typed_equalsTrue`).  All that the
walk changes at a clause are its operands at boolean positions or the tests of its
grouped cases, so typed trees stay typed (`staysTyped`).
-/

namespace QueryFormula

open QueryFormula.Expr

/-- A truth value or a saved filter is no options object. -/
theorem isOptions_of_bare {e : Expr} (h : (e.isTruthColumn || e.isSegment) = true) :
    e.isOptions = false := by
  cases e with
  | options es o => cases h
  | _ => rfl

/-- A truth value or a saved filter that is a condition may be compared. -/
theorem typed_equalsTrue {e : Expr} (hbare : (e.isTruthColumn || e.isSegment) = true)
    (h : Typed .boolean e) : Typed .boolean e.equalsTrue := by
  cases e with
  | bound target place =>
      have hscalar : Typed .expression (.bound target place) := by
        refine typed_bound ?_
        rw [show (target.isMetric = true ↔ _) from h.fits]
        decide
      refine .intro ⟨_, rfl, rfl⟩ fun demand x hx => ?_
      obtain ⟨before, after, s, declared, hxs, hs, -, hdeclares, rfl⟩ := checks_operand rfl hx
      cases hs
      rcases before with _ | ⟨first, _ | ⟨second, before⟩⟩
      · cases hxs
        cases hdeclares
        exact hscalar
      · cases hxs
        exact typed_literal _ _
      · cases before <;> cases hxs
  | _ => cases hbare

theorem typed_conditionTest {e : Expr} (h : Typed .boolean e) :
    Typed .boolean (conditionTest e) := by
  unfold conditionTest
  split
  · rename_i hcolumn
    exact typed_equalsTrue (by rw [hcolumn, Bool.true_or]) h
  · exact h

/-- An operand behind the comparisons is one in front of them, or its comparison at a
boolean position. -/
theorem conditionOperands_eq_append {s : Signature} {position : Nat} {xs before after : List Expr}
    {y : Expr} (h : conditionOperands s position xs = before ++ y :: after) :
    ∃ before' x after', xs = before' ++ x :: after' ∧
      positionalCount before' = positionalCount before ∧
      (y = x ∨ y = x.equalsTrue ∧ (x.isTruthColumn || x.isSegment) = true ∧
        s.parameter? (position + positionalCount before) = some .boolean) := by
  induction xs generalizing position before with
  | nil => cases before <;> cases h
  | cons x xs ih =>
      rw [conditionOperands] at h
      by_cases hoptions : x.isOptions = true
      · rw [if_pos hoptions] at h
        cases before with
        | nil =>
            cases h
            exact ⟨[], _, _, rfl, rfl, .inl rfl⟩
        | cons z before =>
            obtain ⟨rfl, hrest⟩ := List.cons_eq_cons.mp h
            obtain ⟨before', x', after', rfl, hcount, hy⟩ := ih hrest
            refine ⟨x :: before', x', after', rfl, ?_, ?_⟩
            · rw [positionalCount_options hoptions, positionalCount_options hoptions, hcount]
            · rwa [positionalCount_options hoptions]
      · have hvalue := Bool.eq_false_iff.mpr hoptions
        rw [if_neg hoptions] at h
        dsimp only at h
        cases before with
        | nil =>
            obtain ⟨hy, -⟩ := List.cons_eq_cons.mp h
            refine ⟨[], x, xs, rfl, rfl, ?_⟩
            split at hy
            · rename_i hbare
              obtain ⟨hbare, hboolean⟩ := Bool.and_eq_true_iff.mp hbare
              exact .inr ⟨hy.symm, hbare, beq_iff_eq.mp hboolean⟩
            · exact .inl hy.symm
        | cons z before =>
            obtain ⟨hz, hrest⟩ := List.cons_eq_cons.mp h
            have hzvalue : z.isOptions = false := by
              rw [← hz]
              split
              · rfl
              · exact hvalue
            obtain ⟨before', x', after', rfl, hcount, hy⟩ := ih hrest
            refine ⟨x :: before', x', after', rfl, ?_, ?_⟩
            · rw [positionalCount_value hvalue, positionalCount_value hzvalue, hcount]
            · rwa [add_positionalCount_value hzvalue]

/-- Groups are typed anywhere, and anything else stays as it is. -/
theorem typed_groups {e : Expr} {expected : ValueType} (h : Typed expected e) :
    Typed expected (conditionTests e) := by
  cases e with
  | pairs ps o => exact typed_pairs _ o
  | _ => exact h

/-- Grouped cases behind the comparisons. -/
theorem conditionTests_eq_pairs {x : Expr} {qs : List (Expr × Expr)} {place : Option Span}
    (h : conditionTests (compareConditions x) = .pairs qs place) :
    ∃ ps, x = .pairs ps place ∧
      qs = ps.map fun p => (conditionTest (compareConditions p.1), compareConditions p.2) := by
  have hkind : (conditionTests (compareConditions x)).isPairs = x.isPairs :=
    (isPairs_conditionTests _).trans (rearranges_conditionClause.isPairs x)
  rw [h] at hkind
  cases x with
  | pairs ps o =>
      rw [conditionTests_compareConditions_pairs] at h
      cases h
      exact ⟨ps, rfl, rfl⟩
  | _ => cases hkind

/-- Options behind the comparisons. -/
theorem conditionTests_eq_options {x : Expr} {fs : List (String × Expr)} {spot : Option Span}
    (h : conditionTests (compareConditions x) = .options fs spot) :
    ∃ es, x = .options es spot ∧ fs = es.map fun e => (e.1, compareConditions e.2) := by
  have hkind : (conditionTests (compareConditions x)).isOptions = x.isOptions :=
    (isOptions_conditionTests _).trans (rearranges_conditionClause.isOptions x)
  rw [h] at hkind
  cases x with
  | options es o =>
      rw [conditionTests_compareConditions_options] at h
      cases h
      exact ⟨es, rfl, rfl⟩
  | _ => cases hkind

/-- Comparisons keep the tree typed, whatever is expected of it. -/
def StaysTyped (e : Expr) : Prop :=
  ∀ expected, Typed expected e → Typed expected (compareConditions e)

/-- An operand behind a walk is one in front of it, at the same position. -/
theorem map_eq_append_cons {f : Expr → Expr} (hf : ∀ x, (f x).isOptions = x.isOptions)
    {xs before after : List Expr} {y : Expr} (h : xs.map f = before ++ y :: after) :
    ∃ before' x after', xs = before' ++ x :: after' ∧ f x = y ∧
      positionalCount before' = positionalCount before := by
  obtain ⟨before', rest, rfl, rfl, hrest⟩ := List.map_eq_append_iff.mp h
  obtain ⟨x, after', rfl, rfl, rfl⟩ := List.map_eq_cons_iff.mp hrest
  have hcount : positionalCount (before'.map f) = positionalCount before' := by
    simp [positionalCount, List.countP_map, Function.comp_def, hf]
  exact ⟨before', x, after', rfl, rfl, hcount.symm⟩

/-- Where the comparisons keep operands typed, they keep the clause typed. -/
theorem typed_conditionOperands {op : String} {s : Signature} {xs : List Expr}
    {o : Option Span} {expected : ValueType} (hs : signature? op = some s)
    (hcond : isConditional op = false) (h : Typed expected (.clause op xs o))
    (hxs : ∀ x ∈ xs, StaysTyped x) :
    Typed expected (.clause op (conditionOperands s 0 (xs.map compareConditions)) o) := by
  refine .intro h.fits fun demand y hy => ?_
  obtain ⟨before, after, s', declared, hys, hs', hvalue, hdeclares, rfl⟩ := checks_operand hcond hy
  cases hs.symm.trans hs'
  obtain ⟨before', y', after', hsplit, hcount, hcompared⟩ := conditionOperands_eq_append hys
  obtain ⟨first, x, last, rfl, rfl, hposition⟩ :=
    map_eq_append_cons rearranges_conditionClause.isOptions hsplit
  have hx : x.isOptions = false := by
    rw [← rearranges_conditionClause.isOptions x]
    rcases hcompared with rfl | ⟨-, hbare, -⟩
    · exact hvalue
    · exact isOptions_of_bare hbare
  have hmem : x ∈ first ++ x :: last := List.mem_append_right first List.mem_cons_self
  have htyped : Typed (operandType s declared expected) (compareConditions x) :=
    hxs x hmem _ (h.of_checks (.operand hs hx ((hposition.trans hcount) ▸ hdeclares)))
  rcases hcompared with rfl | ⟨rfl, hbare, hboolean⟩
  · exact htyped
  · rw [Nat.zero_add, hdeclares] at hboolean
    cases hboolean
    exact typed_equalsTrue hbare htyped

/-- Where the comparisons keep operands and what is inside grouped cases typed, they
keep the conditional typed. -/
theorem typed_conditionTests {op : String} {xs : List Expr} {o : Option Span}
    {expected : ValueType} (h : Typed expected (.clause op xs o))
    (hxs : ∀ x ∈ xs, StaysTyped x ∧ Within StaysTyped x) :
    Typed expected (.clause op ((xs.map compareConditions).map conditionTests) o) := by
  have hkinds : ∀ x, (conditionTests (compareConditions x)).isOptions = x.isOptions := fun x =>
    (isOptions_conditionTests _).trans (rearranges_conditionClause.isOptions x)
  rw [List.map_map]
  refine .intro h.fits fun demand y hy => ?_
  rcases checks_clause hy with ⟨before, after, s, declared, hys, hs, hvalue, hdeclares, rfl⟩ |
    ⟨hcond, qs, place, more, hys, hgrouped, hinside⟩
  · obtain ⟨first, x, last, rfl, rfl, hposition⟩ := map_eq_append_cons hkinds hys
    have hmem : x ∈ first ++ x :: last := List.mem_append_right first List.mem_cons_self
    have htyped := (hxs x hmem).1 _
      (h.of_checks (.operand hs ((hkinds x).symm.trans hvalue) (hposition ▸ hdeclares)))
    exact typed_groups htyped
  · obtain ⟨x, rest, rfl, hx, hrest⟩ := List.map_eq_cons_iff.mp hys
    obtain ⟨ps, rfl, rfl⟩ := conditionTests_eq_pairs hx
    have hbelow : ∀ p ∈ ps, StaysTyped p.1 ∧ StaysTyped p.2 := (hxs _ List.mem_cons_self).2
    have hgrouped' : isGrouped (.pairs ps place :: rest) = true := by
      rcases (isGrouped_pairs _ _ _).mp hgrouped with rfl | ⟨fs, spot, rfl⟩
      · cases List.map_eq_nil_iff.mp hrest
        rfl
      · obtain ⟨x, rest', rfl, hx, hnil⟩ := List.map_eq_cons_iff.mp hrest
        cases List.map_eq_nil_iff.mp hnil
        obtain ⟨es, rfl, -⟩ := conditionTests_eq_options hx
        rfl
    rcases hinside with ⟨q, hq, rfl, rfl⟩ | ⟨q, hq, rfl, rfl⟩ | ⟨fs, spot, hmore, hentry, rfl⟩
    · obtain ⟨p, hp, rfl⟩ := List.mem_map.mp hq
      exact typed_conditionTest ((hbelow p hp).1 _ (h.of_checks (.test hcond hgrouped' hp)))
    · obtain ⟨p, hp, rfl⟩ := List.mem_map.mp hq
      exact (hbelow p hp).2 _ (h.of_checks (.value hcond hgrouped' hp))
    · subst hmore
      obtain ⟨x, rest', rfl, hx, hnil⟩ := List.map_eq_cons_iff.mp hrest
      cases List.map_eq_nil_iff.mp hnil
      obtain ⟨es, rfl, rfl⟩ := conditionTests_eq_options hx
      rw [lookup_map_values] at hentry
      obtain ⟨e, he, rfl⟩ := Option.map_eq_some_iff.mp hentry
      have hmem : Expr.options es spot ∈ [Expr.pairs ps place, .options es spot] :=
        List.mem_cons_of_mem _ List.mem_cons_self
      have hstays : ∀ entry ∈ es, StaysTyped entry.2 := (hxs _ hmem).2
      exact hstays _ (mem_of_lookup he) _ (h.of_checks (.default hcond he))

/-- **Comparisons keep a typed tree typed.** -/
theorem staysTyped (e : Expr) : StaysTyped e := by
  induction e using inductClauses with
  | literal v o => exact fun _ h => by simpa [compareConditions] using h
  | reference k n o => exact fun _ h => by simpa [compareConditions] using h
  | bound t o => exact fun _ h => by simpa [compareConditions] using h
  | options es o _ =>
      intro expected _
      rw [compareConditions, bottomUp_options]
      exact typed_options _ o
  | pairs ps o _ =>
      intro expected _
      rw [compareConditions, bottomUp_pairs]
      exact typed_pairs _ o
  | clause op xs o ih =>
      intro expected h
      obtain ⟨s, hs, -⟩ := h.fits
      rw [compareConditions_clause, conditionClause]
      by_cases hcond : isConditional op = true
      · rw [if_pos hcond]
        exact typed_conditionTests h ih
      · rw [if_neg hcond, hs]
        exact typed_conditionOperands hs (Bool.eq_false_iff.mpr hcond) h fun x hx => (ih x hx).1

end QueryFormula
