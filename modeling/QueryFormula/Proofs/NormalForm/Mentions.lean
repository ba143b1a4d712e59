import QueryFormula.Proofs.Expr.Mentions
import QueryFormula.Proofs.NormalForm.Arrangement
import QueryFormula.Proofs.NormalForm.Negation

/-!
# The normal form keeps what the catalog does not know

A clause whose operator is none of the catalog is no `not` and has no opposite, so no
step drops it or gives it another operator: what becomes of a clause around it only
moves its operands (`Mentions.normalForm`).
-/

namespace QueryFormula

open QueryFormula.Expr

/-- The step loses no clause of an operator that the catalog does not hold. -/
def KeepsUnknown (g : ClauseStep) : Prop :=
  ∀ (op : String) (place : Span) (f : String) (xs : List Expr) (o : Option Span),
    signature? op = none → Mentions op place (.clause f xs o) → Mentions op place (g f xs o)

/-- A walk of such steps loses none. -/
theorem KeepsUnknown.bottomUp {g : ClauseStep} (hg : KeepsUnknown g) {op : String}
    {place : Span} {e : Expr} (hop : signature? op = none) (h : Mentions op place e) :
    Mentions op place (bottomUp (onClause g) e) := by
  induction e with
  | literal v o => exact absurd h (not_mentions_literal v o)
  | reference k n o => exact absurd h (not_mentions_reference k n o)
  | bound t o => exact absurd h (not_mentions_bound t o)
  | clause f xs o ih =>
      rw [bottomUp_clause_adopt]
      refine (hg op place f _ o hop ?_).adoptOrigin o
      refine (mentions_clause f _ o).mpr (((mentions_clause f xs o).mp h).imp_right ?_)
      rintro ⟨x, hx, hbelow⟩
      exact ⟨_, List.mem_map_of_mem hx, ih x hx hbelow⟩
  | options es o ih =>
      obtain ⟨e, he, hbelow⟩ := (mentions_options es o).mp h
      rw [bottomUp_options]
      exact (mentions_options _ o).mpr ⟨_, List.mem_map_of_mem he, ih e he hbelow⟩
  | pairs ps o ih =>
      obtain ⟨p, hp, hbelow⟩ := (mentions_pairs ps o).mp h
      rw [bottomUp_pairs]
      exact (mentions_pairs _ o).mpr
        ⟨_, List.mem_map_of_mem hp, hbelow.imp (ih p hp).1 (ih p hp).2⟩

section Steps

variable {op : String} {place : Span}

/-- A clause stays where its operator stays and its operands are among the new ones. -/
theorem mentions_clause_of_operands {f : String} {xs ys : List Expr} {o : Option Span}
    (hxs : ∀ x ∈ xs, Mentions op place x → ∃ y ∈ ys, Mentions op place y)
    (h : Mentions op place (.clause f xs o)) : Mentions op place (.clause f ys o) := by
  refine (mentions_clause f ys o).mpr (((mentions_clause f xs o).mp h).imp_right ?_)
  rintro ⟨x, hx, hbelow⟩
  exact hxs x hx hbelow

/-- Pairing up loses no operand. -/
theorem mem_pairUp {x : Expr} : ∀ {xs : List Expr}, x ∈ xs →
    (∃ p ∈ (pairUp xs).1, x = p.1 ∨ x = p.2) ∨ (pairUp xs).2 = some x
  | [_], h => .inr (congrArg some (List.mem_singleton.mp h).symm)
  | test :: value :: rest, h => by
      rw [pairUp]
      rcases List.mem_cons.mp h with rfl | h
      · exact .inl ⟨_, List.mem_cons_self, .inl rfl⟩
      rcases List.mem_cons.mp h with rfl | h
      · exact .inl ⟨_, List.mem_cons_self, .inr rfl⟩
      rcases mem_pairUp h with ⟨p, hp, hx⟩ | hdefault
      · exact .inl ⟨p, List.mem_cons_of_mem _ hp, hx⟩
      · exact .inr hdefault

theorem mentions_groupCases {xs : List Expr} {x : Expr} (hx : x ∈ xs)
    (h : Mentions op place x) : ∃ y ∈ groupCases xs, Mentions op place y := by
  have hmem := mem_pairUp hx
  unfold groupCases
  rcases hpaired : pairUp xs with ⟨cases, default⟩
  rw [hpaired] at hmem
  rcases hmem with ⟨p, hp, hside⟩ | hdefault
  · have hgrouped : Mentions op place (.pairs cases (operandsOrigin xs)) := by
      refine (mentions_pairs _ _).mpr ⟨p, hp, ?_⟩
      rcases hside with rfl | rfl
      · exact .inl h
      · exact .inr h
    cases default <;> exact ⟨_, List.mem_cons_self, hgrouped⟩
  · obtain rfl : default = some x := hdefault
    refine ⟨_, List.mem_cons_of_mem _ List.mem_cons_self, ?_⟩
    exact (mentions_options _ _).mpr ⟨_, List.mem_singleton_self _, h⟩

end Steps

/-- A shorthand is a text, and mentions no clause. -/
theorem keepsUnknown_optionsOfShorthand : KeepsUnknown optionsOfShorthand := by
  intro op place f xs o _ h
  unfold optionsOfShorthand
  split
  · rename_i s c _ hc
    split
    · refine mentions_clause_of_operands (fun x hx hbelow => ?_) h
      obtain ⟨last, hlast, hshorthand⟩ := Option.bind_eq_some_iff.mp hc
      obtain ⟨front, rfl⟩ := List.getLast?_eq_some_iff.mp hlast
      rw [List.dropLast_concat]
      rcases List.mem_append.mp hx with hx | hx
      · exact ⟨x, List.mem_append_left _ hx, hbelow⟩
      · rw [List.mem_singleton.mp hx] at hbelow
        cases last with
        | literal v p => exact absurd hbelow (not_mentions_literal v p)
        | _ => cases hshorthand
    · exact h
  · exact h

/-- The clauses that folding drops or renames are those of the catalog. -/
theorem keepsUnknown_shortenNegation : KeepsUnknown shortenNegation := by
  intro op place f xs o hop h
  have hknown : ∀ g, (signature? g).isSome = true → g ≠ op := by
    rintro g hg rfl
    rw [hop] at hg
    cases hg
  have hnot : ("not" : String) ≠ op := hknown "not" rfl
  rcases shortenNegation_cases f xs o with
    ⟨-, hstep⟩ | ⟨x, p, rfl, rfl, hstep⟩ | ⟨g, opposite, ys, p, rfl, rfl, hopp, hstep⟩
  · exact hstep ▸ h
  · rw [hstep]
    simpa [hnot] using h
  · have hg : g ≠ op := by
      refine hknown g ?_
      unfold opposite? at hopp
      split at hopp
      all_goals first | rfl | cases hopp
    rw [hstep, mentions_clause]
    right
    simpa [hnot, hg] using h

theorem keepsUnknown_offsetOptions : KeepsUnknown offsetOptions := by
  intro op place f xs o _ h
  unfold offsetOptions
  split
  · exact mentions_clause_of_operands
      (fun x hx hbelow => ⟨x, List.mem_cons_of_mem _ hx, hbelow⟩) h
  · exact h

theorem keepsUnknown_groupConditional : KeepsUnknown groupConditional := by
  intro op place f xs o _ h
  unfold groupConditional
  split
  · exact mentions_clause_of_operands (fun x hx hbelow => mentions_groupCases hx hbelow) h
  · exact h

theorem keepsUnknown_leadWithOptions : KeepsUnknown leadWithOptions := by
  intro op place f xs o _ h
  obtain ⟨ys, hys, hhoisted⟩ := exists_hoisted f xs o
  rw [hys]
  cases hhoisted with
  | kept => exact h
  | moved _ _ hfront _ _ =>
      subst hfront
      exact mentions_clause_of_operands
        (fun x hx hbelow => ⟨x, by simpa [or_comm] using hx, hbelow⟩) h
  | added =>
      exact mentions_clause_of_operands
        (fun x hx hbelow => ⟨x, List.mem_cons_of_mem _ hx, hbelow⟩) h

/-- **The normal form keeps clauses that the catalog does not hold.** -/
theorem Expr.Mentions.normalForm {op : String} {place : Span} {e : Expr}
    (hop : signature? op = none) (h : Mentions op place e) : Mentions op place (normalForm e) := by
  have hspelled : Mentions op place (spellOutShorthands e) :=
    keepsUnknown_optionsOfShorthand.bottomUp hop h
  have hfolded : Mentions op place (foldNegations _) :=
    keepsUnknown_shortenNegation.bottomUp hop hspelled
  have hcomplete : Mentions op place (completeOffsets _) :=
    keepsUnknown_offsetOptions.bottomUp hop hfolded
  have hgrouped : Mentions op place (groupConditionals _) :=
    keepsUnknown_groupConditional.bottomUp hop hcomplete
  have hhoisted : Mentions op place (hoistOptions _) :=
    keepsUnknown_leadWithOptions.bottomUp hop hgrouped
  change Mentions op place (wrapLiteral _)
  unfold wrapLiteral
  split
  · exact (mentions_clause _ _ _).mpr (.inr ⟨_, List.mem_singleton_self _, hhoisted⟩)
  · exact hhoisted

end QueryFormula
