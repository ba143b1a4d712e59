import QueryFormula.NormalForm
import QueryFormula.Proofs.Expr.Rearrange

/-!
# Negations

`shortenNegation_cases` lists what can become of a clause when negations are
folded.  A folded tree holds no `not` that could go further down
(`unnegated_foldNegations`), and a walk through the tree that leaves every `not`
alone brings up none.
-/

namespace QueryFormula

open QueryFormula.Expr

/-- A `not` around this goes into it. -/
def isNegatable (e : Expr) : Bool :=
  (negateClause? none e).isSome

/-- The clause is no `not` that goes into its operand. -/
def Unnegated (op : String) (operands : List Expr) : Prop :=
  op = "not" → ∀ x, operands = [x] → isNegatable x = false

/-- Whether a clause can be negated does not depend on where it is read from. -/
theorem isSome_negateClause? (o : Option Span) (e : Expr) :
    (negateClause? o e).isSome = isNegatable e := by
  unfold isNegatable negateClause?
  split
  · split
    · rfl
    · simp
  · rfl

theorem shortenNegation_of_unnegated {op : String} {xs : List Expr} {o : Option Span}
    (h : Unnegated op xs) : shortenNegation op xs o = .clause op xs o := by
  unfold shortenNegation
  split
  · rename_i x
    have hx := h rfl x rfl
    rw [← isSome_negateClause? o, Option.isSome_eq_false_iff, Option.isNone_iff_eq_none] at hx
    rw [hx, Option.getD_none]
  · rfl

/-- A clause with a negation is a `not` or has an opposite. -/
theorem negateClause?_cases {o : Option Span} {e r : Expr} (h : negateClause? o e = some r) :
    (∃ p, e = .clause "not" [r] p) ∨
    (∃ f opposite ys p, e = .clause f ys p ∧ opposite? f = some opposite ∧
      r = .clause opposite ys o) := by
  unfold negateClause? at h
  split at h
  · split at h
    · cases h
      exact .inl ⟨_, rfl⟩
    · obtain ⟨opposite, hopposite, rfl⟩ := Option.map_eq_some_iff.mp h
      exact .inr ⟨_, opposite, _, _, rfl, hopposite, rfl⟩
  · cases h

/-- **What becomes of a clause.**  It stays, or it is a double negation and its
inmost operand remains, or it is the negation of a clause with an opposite. -/
theorem shortenNegation_cases (op : String) (xs : List Expr) (o : Option Span) :
    (Unnegated op xs ∧ shortenNegation op xs o = .clause op xs o) ∨
    (∃ x p, op = "not" ∧ xs = [.clause "not" [x] p] ∧ shortenNegation op xs o = x) ∨
    (∃ f opposite ys p, op = "not" ∧ xs = [.clause f ys p] ∧ opposite? f = some opposite ∧
      shortenNegation op xs o = .clause opposite ys o) := by
  by_cases h : ∃ x r, op = "not" ∧ xs = [x] ∧ negateClause? o x = some r
  · obtain ⟨x, r, rfl, rfl, hr⟩ := h
    have hstep : shortenNegation "not" [x] o = r := by
      rw [shortenNegation, hr, Option.getD_some]
    rcases negateClause?_cases hr with ⟨p, rfl⟩ | ⟨f, opposite, ys, p, rfl, hopposite, rfl⟩
    · exact .inr (.inl ⟨r, p, rfl, rfl, hstep⟩)
    · exact .inr (.inr ⟨f, opposite, ys, p, rfl, rfl, hopposite, hstep⟩)
  · have hkept : Unnegated op xs := by
      intro hop x hxs
      rw [← isSome_negateClause? o, Option.isSome_eq_false_iff, Option.isNone_iff_eq_none]
      cases hr : negateClause? o x with
      | none => rfl
      | some r => exact absurd ⟨x, r, hop, hxs, hr⟩ h
    exact .inl ⟨hkept, shortenNegation_of_unnegated hkept⟩

/-- What holds of a clause exactly where it holds of all operands is kept where negations are
folded: they add no operand. -/
theorem shortenNegation_of_operands {K : Expr → Prop} {op : String} {xs : List Expr}
    {o : Option Span} (hclause : ∀ f ys, (∀ y ∈ ys, K y) → K (.clause f ys o))
    (hoperands : ∀ f ys p, K (.clause f ys p) → ∀ y ∈ ys, K y) (hxs : ∀ x ∈ xs, K x) :
    K (shortenNegation op xs o) := by
  rcases shortenNegation_cases op xs o with
    ⟨-, hstep⟩ | ⟨x, p, -, hnot, hstep⟩ | ⟨f, opposite, ys, p, -, hneg, -, hstep⟩
  · exact hstep ▸ hclause op xs hxs
  · have hinner := hxs _ (hnot ▸ List.mem_singleton_self _)
    exact hstep ▸ hoperands _ _ _ hinner x (List.mem_singleton_self x)
  · have hinner := hxs _ (hneg ▸ List.mem_singleton_self _)
    exact hstep ▸ hclause opposite ys (hoperands _ _ _ hinner)

/-- The operator of a negation without a `not` is no `not`. -/
theorem opposite?_ne_not {op opposite : String} (h : opposite? op = some opposite) :
    opposite ≠ "not" := by
  unfold opposite? at h
  split at h <;> grind

/-- Where the operands are folded, folding a clause leaves no `not` that could go
further down. -/
theorem unnegated_shortenNegation {op : String} {xs : List Expr} {o : Option Span}
    (hxs : ∀ x ∈ xs, EveryClause Unnegated x) :
    EveryClause Unnegated (shortenNegation op xs o) := by
  rcases shortenNegation_cases op xs o with
    ⟨hkept, hstep⟩ | ⟨x, p, -, hnot, hstep⟩ | ⟨f, opposite, ys, p, -, hneg, hopp, hstep⟩
  · exact hstep ▸ (everyClause_clause op _ o).mpr ⟨hkept, hxs⟩
  · -- both `not` are gone, and what they enclosed is folded already
    have hinner := hxs _ (hnot ▸ List.mem_singleton_self _)
    rw [everyClause_clause] at hinner
    exact hstep ▸ hinner.2 x (List.mem_singleton_self x)
  · have hinner := hxs _ (hneg ▸ List.mem_singleton_self _)
    rw [everyClause_clause] at hinner
    have hkept : Unnegated opposite ys := fun h => absurd h (opposite?_ne_not hopp)
    exact hstep ▸ (everyClause_clause opposite ys o).mpr ⟨hkept, hinner.2⟩

/-- Folding leaves no `not` in the tree that could go further down. -/
theorem unnegated_foldNegations (e : Expr) : EveryClause Unnegated (foldNegations e) :=
  everyClause_bottomUp (fun _ _ _ _ hxs => unnegated_shortenNegation hxs)
    (everyClause_true e)

/-- Whether a `not` goes into a clause is not changed by a walk that leaves every
`not` alone. -/
theorem isNegatable_bottomUp {g : ClauseStep} (hg : Rearranges g)
    (hidle : ∀ xs o, g "not" xs o = .clause "not" xs o) (e : Expr) :
    isNegatable (bottomUp (onClause g) e) = isNegatable e := by
  cases e with
  | literal v o => rw [bottomUp_literal]
  | reference k n o => rw [bottomUp_reference]
  | bound t o => rw [bottomUp_bound]
  | clause op xs o =>
      by_cases hop : op = "not"
      · subst hop
        rw [hg.bottomUp_clause, hidle]
        rcases xs with _ | ⟨x, _ | ⟨y, xs⟩⟩ <;> rfl
      · obtain ⟨ys, hys⟩ := hg op (xs.map (bottomUp (onClause g))) o
        rw [hg.bottomUp_clause, hys]
        simp [isNegatable, negateClause?, hop]
  | options es o => rw [bottomUp_options]; rfl
  | pairs ps o => rw [bottomUp_pairs]; rfl

theorem Unnegated.map {g : ClauseStep} (hg : Rearranges g)
    (hidle : ∀ xs o, g "not" xs o = .clause "not" xs o) {op : String} {xs : List Expr}
    (h : Unnegated op xs) : Unnegated op (xs.map (bottomUp (onClause g))) := by
  intro hop y hy
  obtain ⟨x, rfl, rfl⟩ := List.map_eq_singleton_iff.mp hy
  rw [isNegatable_bottomUp hg hidle]
  exact h hop x rfl

/-- A walk that leaves every `not` alone brings up no negation. -/
theorem Unnegated.step {g : ClauseStep} (hidle : ∀ xs o, g "not" xs o = .clause "not" xs o)
    {op : String} {xs ys : List Expr} {o : Option Span} (h : Unnegated op xs)
    (hys : g op xs o = .clause op ys o) : Unnegated op ys := by
  by_cases hop : op = "not"
  · subst hop
    rw [hidle] at hys
    cases hys
    exact h
  · exact fun h => absurd h hop

end QueryFormula
