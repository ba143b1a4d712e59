import QueryFormula.Proofs.NormalForm.Arrangement
import QueryFormula.Proofs.NormalForm.Negation
import QueryFormula.Proofs.Places.Nesting

/-!
# Origins in a normal form

The steps to the normal form drop, wrap, group and reorder nodes, and put in nodes that no
source spells out.  What resolution looks at keeps a place in the source through all of them
(`Expr.Placed`): a literal, a name and a clause have one, and only the settings that stand
for a shorthand or for an option left out have none.
-/

namespace QueryFormula

namespace Expr

/-- Every literal, name and clause that resolution looks at has its place among the tokens;
settings are truth values. -/
inductive Placed (tokens : List Token) : Expr → Prop
  | literal {value : Literal} {span : Span} (reflexive : value.IsReflexive)
      (place : IsRange tokens span) : Placed tokens (.literal value (some span))
  | name {kind : NameKind} {name : String} {span : Span} (writes : IsName tokens name span)
      (place : IsRange tokens span) : Placed tokens (.reference kind name (some span))
  | bound {target : BoundRef} {span : Span} (place : IsRange tokens span) :
      Placed tokens (.bound target (some span))
  | clause {op : String} {xs : List Expr} {span : Span} (place : IsRange tokens span)
      (operands : ∀ x ∈ xs, Placed tokens x) : Placed tokens (.clause op xs (some span))
  | options {es : List (String × Expr)} {o : Option Span}
      (default : ∀ e ∈ es, e.1 = "default" → Placed tokens e.2)
      (settings : ∀ e ∈ es, e.1 ≠ "default" → ∃ b, e.2 = ofBool b) :
      Placed tokens (.options es o)
  | pairs {ps : List (Expr × Expr)} {o : Option Span} (tests : ∀ p ∈ ps, Placed tokens p.1)
      (values : ∀ p ∈ ps, Placed tokens p.2) : Placed tokens (.pairs ps o)

variable {tokens : List Token} {e : Expr}

/-- What is read from the tokens has its places among them. -/
theorem Nested.placed (h : Nested tokens e) : Placed tokens e := by
  induction h with
  | literal reflexive place => exact .literal reflexive place
  | name writes place => exact .name writes place
  | clause place _ _ _ ih => exact .clause place ih

/-- What has its places among tokens equals itself. -/
theorem Placed.isReflexive {tokens : List Token} {e : Expr} (h : Placed tokens e) :
    e.IsReflexive := by
  induction h with
  | literal reflexive _ => exact reflexive
  | name _ _ => exact isReflexive_reference _ _ _
  | bound _ => exact isReflexive_bound _ _
  | clause _ _ ih => exact (isReflexive_clause _ _ _).mpr ih
  | options _ settings ih =>
      refine (isReflexive_options _ _).mpr fun e he => ?_
      by_cases hkey : e.1 = "default"
      · exact ih e he hkey
      · obtain ⟨b, hb⟩ := settings e he hkey
        rw [hb]
        exact isReflexive_ofBool b
  | pairs _ _ ihtests ihvalues =>
      exact (isReflexive_pairs _ _).mpr fun p hp => ⟨ihtests p hp, ihvalues p hp⟩

namespace Placed

theorem operands {op : String} {xs : List Expr} {o : Option Span}
    (h : Placed tokens (.clause op xs o)) : ∀ x ∈ xs, x.Placed tokens := by
  cases h with
  | clause _ operands => exact operands

/-- What has no place of its own may adopt any. -/
theorem adoptOrigin (h : Placed tokens e) (o : Option Span) : Placed tokens (e.adoptOrigin o) := by
  cases h with
  | literal reflexive place => exact .literal reflexive place
  | name writes place => exact .name writes place
  | bound place => exact .bound place
  | clause place operands => exact .clause place operands
  | @options es p default settings => cases p <;> exact .options default settings
  | @pairs ps p tests values => cases p <;> exact .pairs tests values

end Placed

/-- The step keeps the places of a clause. -/
def KeepsPlaces (g : ClauseStep) : Prop :=
  ∀ (tokens : List Token) (op : String) (xs : List Expr) (span : Span), IsRange tokens span →
    (∀ x ∈ xs, Placed tokens x) → Placed tokens (g op xs (some span))

/-- A walk of such a step keeps the places of a tree. -/
theorem Placed.bottomUp {g : ClauseStep} (hg : KeepsPlaces g) (h : Placed tokens e) :
    Placed tokens (bottomUp (onClause g) e) := by
  induction h with
  | literal reflexive place =>
      rw [bottomUp_literal]
      exact .literal reflexive place
  | name writes place =>
      rw [bottomUp_reference]
      exact .name writes place
  | bound place =>
      rw [bottomUp_bound]
      exact .bound place
  | clause place _ ih =>
      rw [bottomUp_clause_adopt]
      exact (hg tokens _ _ _ place (List.forall_mem_map.mpr ih)).adoptOrigin _
  | options _ settings ih =>
      rw [bottomUp_options]
      refine .options (List.forall_mem_map.mpr ih) (List.forall_mem_map.mpr fun e he hkey => ?_)
      obtain ⟨b, hb⟩ := settings e he hkey
      exact ⟨b, by rw [hb, ofBool, bottomUp_literal]⟩
  | pairs _ _ ihtests ihvalues =>
      rw [bottomUp_pairs]
      exact .pairs (List.forall_mem_map.mpr ihtests) (List.forall_mem_map.mpr ihvalues)

end Expr

open QueryFormula.Expr

/-! ### Each step -/

section Steps

variable {tokens : List Token}

/-- A setting is no default, and has no place. -/
theorem holdsOfWritten_placed (tokens : List Token) : HoldsOfWritten (Placed tokens) where
  noOptions :=
    .options (fun _ he => absurd he List.not_mem_nil) (fun _ he => absurd he List.not_mem_nil)
  setting key value o hkey := by
    refine .options (fun e he hdefault => ?_) (fun e he _ => ⟨value, ?_⟩)
    · rw [List.mem_singleton.mp he] at hdefault
      exact absurd hdefault hkey
    · rw [List.mem_singleton.mp he]
  cases ps o h := .pairs (fun p hp => (h p hp).1) (fun p hp => (h p hp).2)
  default x o hx := by
    refine .options (fun e he _ => ?_) (fun e he hkey => ?_)
    · rw [List.mem_singleton.mp he]
      exact hx
    · rw [List.mem_singleton.mp he] at hkey
      exact absurd rfl hkey

/-- The place of a clause is that of the clause it is made of. -/
theorem Arranges.keepsPlaces {g : ClauseStep} (hg : Arranges g) : KeepsPlaces g := by
  intro tokens op xs span place hxs
  obtain ⟨ys, hys, hplaced⟩ := hg (holdsOfWritten_placed tokens) op xs (some span) hxs
  exact hys ▸ .clause place hplaced

theorem keepsPlaces_shortenNegation : KeepsPlaces shortenNegation := fun _ _ _ _ place hxs =>
  shortenNegation_of_operands (fun _ _ => .clause place) (fun _ _ _ h => h.operands) hxs

theorem placed_wrapLiteral {e : Expr} (h : Placed tokens e) : Placed tokens (wrapLiteral e) := by
  unfold wrapLiteral
  split
  · cases h with
    | literal reflexive place =>
        exact .clause place (List.forall_mem_singleton.mpr (.literal reflexive place))
    | _ => contradiction
  · exact h

/-- **The normal form keeps places.** -/
theorem Expr.Placed.normalForm {e : Expr} (h : Placed tokens e) :
    Placed tokens (normalForm e) := by
  have hspelled : Placed tokens (spellOutShorthands e) :=
    h.bottomUp arranges_optionsOfShorthand.keepsPlaces
  have hfolded : Placed tokens (foldNegations _) :=
    hspelled.bottomUp keepsPlaces_shortenNegation
  have harranged : Placed tokens (arrange _) := hfolded.bottomUp arranges_arrangeClause.keepsPlaces
  rw [normalForm_eq]
  exact placed_wrapLiteral harranged

end Steps

end QueryFormula
