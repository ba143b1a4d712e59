import QueryFormula.Proofs.Expr.Listing
import QueryFormula.Proofs.Grammar.RawTree
import QueryFormula.Proofs.NormalForm.Layout

/-!
# The normal form keeps its lists

Behind the first step no step of the normal form drops, doubles or moves a leaf with a place
or a conditional: what a view shows of these (`IsKept`) is shown of the normal form in the
same order (`listed_normalForm`).  The options that go in front of other operands hold
nothing from the source, and a negation that is dropped is a clause of its own.
-/

namespace QueryFormula

open QueryFormula.Expr

variable {β : Type} {view : Expr → Option β}

/-- The view shows only what no step writes: leaves with a place, and conditionals.  Of these
it shows the same if their operands are rebuilt or grouped. -/
structure IsKept (view : Expr → Option β) : Prop where
  options (es : List (String × Expr)) (o : Option Span) : view (.options es o) = none
  pairs (ps : List (Expr × Expr)) (o : Option Span) : view (.pairs ps o) = none
  unplaced (v : Literal) : view (.literal v none) = none
  clause {op : String} (h : isConditional op = false) (xs : List Expr) (o : Option Span) :
    view (.clause op xs o) = none
  rebuilt {op : String} {xs ys : List Expr} (hxs : PlainOperands op xs) (hys : PlainOperands op ys)
    (hlength : xs.length = ys.length) (o : Option Span) :
    view (.clause op xs o) = view (.clause op ys o)
  grouped {op : String} {xs : List Expr} (hxs : PlainOperands op xs) (o : Option Span) :
    view (.clause op (groupCases xs) o) = view (.clause op xs o)

/-! ### Places -/

/-- The node has a place, and as an options object it holds nothing from the source. -/
structure Anchored (e : Expr) : Prop where
  origin : e.origin ≠ none
  options (es : List (String × Expr)) (o : Option Span) (is : e = .options es o) :
    ∀ entry ∈ es, ∃ v, entry.2 = .literal v none

def AnchoredOperands (_ : String) (operands : List Expr) : Prop :=
  ∀ x ∈ operands, Anchored x

namespace Anchored

theorem of_isOptions {e : Expr} (h : e.origin ≠ none) (hoptions : e.isOptions = false) :
    Anchored e := by
  refine ⟨h, fun es o is => ?_⟩
  rw [is] at hoptions
  cases hoptions

theorem adoptOrigin_eq {e : Expr} (h : Anchored e) (o : Option Span) : e.adoptOrigin o = e := by
  cases horigin : e.origin with
  | none => exact absurd horigin h.origin
  | some place => rw [adoptOrigin, horigin]

/-- Options show nothing. -/
theorem listed_eq_nil {e : Expr} (h : Anchored e) (hview : IsKept view)
    (hoptions : e.isOptions = true) : listed view e = [] := by
  cases e with
  | options es o =>
      rw [listed_options, hview.options, Option.toList_none, List.nil_append,
        List.flatMap_eq_nil_iff]
      intro entry hentry
      obtain ⟨v, hv⟩ := h.options es o rfl entry hentry
      rw [hv, listed_leaf rfl, hview.unplaced, Option.toList_none]
  | _ => cases hoptions

end Anchored

theorem Expr.Written.everyClause {e : Expr} (h : e.Written) :
    EveryClause (fun _ operands => ∀ x ∈ operands, x.Written) e := by
  induction h with
  | literal v place => exact everyClause_literal v _
  | name n place => exact everyClause_reference _ n _
  | clause place operands ih => exact (everyClause_clause _ _ _).mpr ⟨operands, ih⟩

/-- **The first step** writes options in the place of a shorthand. -/
theorem anchored_spellOutShorthands {e : Expr} (h : e.Written) :
    EveryClause AnchoredOperands (spellOutShorthands e) := by
  refine arranges_optionsOfShorthand.everyClause h.everyClause fun op xs o ys hwritten hys => ?_
  have hanchored : AnchoredOperands op (xs.map (bottomUp (onClause optionsOfShorthand))) := by
    intro y hy
    obtain ⟨x, hx, rfl⟩ := List.mem_map.mp hy
    obtain ⟨place, hplace⟩ := (hwritten x hx).exists_origin
    refine .of_isOptions ?_ ?_
    · rw [rearranges_optionsOfShorthand.origin, hplace]
      exact Option.some_ne_none place
    · rw [rearranges_optionsOfShorthand.isOptions]
      exact isOptions_of_isPlain (hwritten x hx).isPlain
  by_cases htrails : trailsShorthand op (xs.map (bottomUp (onClause optionsOfShorthand))) = true
  · obtain ⟨s, zs, x, c, -, -, -, hzs, hc, hstep⟩ := optionsOfShorthand_of_trails htrails o
    rw [hstep] at hys
    rw [hzs] at hanchored
    cases hys
    obtain ⟨hothers, hlast⟩ := List.forall_mem_append.mp hanchored
    refine List.forall_mem_append.mpr ⟨hothers, List.forall_mem_singleton.mpr ?_⟩
    obtain ⟨setting, -, rfl⟩ := Option.map_eq_some_iff.mp hc
    refine ⟨(hlast x (List.mem_singleton_self x)).origin, fun es p hes => ?_⟩
    cases hes
    exact List.forall_mem_singleton.mpr ⟨_, rfl⟩
  · rw [optionsOfShorthand_of_not (Bool.eq_false_iff.mpr htrails)] at hys
    cases hys
    exact hanchored

/-- What remains of a negation is anchored as its operands are. -/
theorem anchored_shortenNegation {op : String} {xs : List Expr} (o : Option Span)
    (h : ∀ x ∈ xs, EveryClause AnchoredOperands x ∧ Anchored x) :
    EveryClause AnchoredOperands (shortenNegation op xs o) ∧
      (o ≠ none → Anchored ((shortenNegation op xs o).adoptOrigin o)) := by
  have hclause (name : String) (ys : List Expr) (ho : o ≠ none) :
      Anchored ((Expr.clause name ys o).adoptOrigin o) :=
    (adoptOrigin_origin (.clause name ys o)).symm ▸ .of_isOptions ho rfl
  rcases shortenNegation_cases op xs o with
    ⟨-, hstep⟩ | ⟨x, p, -, rfl, hstep⟩ | ⟨f, opposite, ys, p, -, rfl, -, hstep⟩
  · rw [hstep, everyClause_clause]
    exact ⟨⟨fun x hx => (h x hx).2, fun x hx => (h x hx).1⟩, hclause op xs⟩
  · have hinner := (h _ (List.mem_singleton_self _)).1
    obtain ⟨hx, hbelow⟩ := (everyClause_clause "not" [x] p).mp hinner
    have hanchored : Anchored x := hx x (List.mem_singleton_self x)
    rw [hstep, hanchored.adoptOrigin_eq]
    exact ⟨hbelow x (List.mem_singleton_self x), fun _ => hanchored⟩
  · have hinner := (h _ (List.mem_singleton_self _)).1
    obtain ⟨hys, hbelow⟩ := (everyClause_clause f ys p).mp hinner
    rw [hstep, everyClause_clause]
    exact ⟨⟨hys, hbelow⟩, hclause opposite ys⟩

/-- **The second step** drops clauses, and what stands in their place has one already. -/
theorem anchored_foldNegations {e : Expr} (h : EveryClause AnchoredOperands e) :
    EveryClause AnchoredOperands (foldNegations e) ∧
      (Anchored e → Anchored (foldNegations e)) := by
  refine everyClause_bottomUp_keeping (fun op xs o hroot hxs => ?_)
    (fun es o hanchored => ⟨hanchored.origin, fun fs p hfs => ?_⟩)
    (fun _ _ hanchored => .of_isOptions hanchored.origin rfl) h
  · obtain ⟨hshort, hkept⟩ := anchored_shortenNegation o (List.forall_mem_map.mpr fun x hx =>
      ⟨(hxs x hx).1, (hxs x hx).2 (hroot x hx)⟩)
    exact ⟨hshort, fun hanchored => hkept hanchored.origin⟩
  · -- the values are literals, which the walk leaves alone
    cases hfs
    refine List.forall_mem_map.mpr fun e he => ?_
    obtain ⟨v, hv⟩ := hanchored.options es o rfl e he
    exact ⟨v, by rw [hv, bottomUp_literal]⟩

/-! ### Each step -/

/-- The operands of a conditional are plain until they are grouped. -/
theorem Spelled.plain_of_conditional {op : String} {xs : List Expr} (h : Spelled op xs)
    (hcond : isConditional op = true) : PlainOperands op xs := by
  cases h with
  | plain hplain => exact hplain
  | trailing _ hfound htakes _ _ =>
      rw [(name_of_takesOptions hfound htakes).2.2] at hcond
      cases hcond

/-- A view shows of a clause what it shows of the clause with its operands rebuilt. -/
theorem IsKept.view_map (hview : IsKept view) {op : String} {xs : List Expr} {f : Expr → Expr}
    (h : Spelled op xs) (hplain : ∀ x ∈ xs, x.isPlain = true → (f x).isPlain = true)
    (o : Option Span) : view (.clause op (xs.map f) o) = view (.clause op xs o) := by
  by_cases hcond : isConditional op = true
  · have hxs := h.plain_of_conditional hcond
    have hmap : PlainOperands op (xs.map f) :=
      List.forall_mem_map.mpr fun x hx => hplain x hx (hxs x hx)
    exact hview.rebuilt hmap hxs (List.length_map f) o
  · have hother := Bool.eq_false_iff.mpr hcond
    rw [hview.clause hother, hview.clause hother]

/-- A clause that is shown with its operands only. -/
theorem IsKept.listed_clause (hview : IsKept view) {op : String} (h : isConditional op = false)
    (xs : List Expr) (o : Option Span) :
    listed view (.clause op xs o) = xs.flatMap (listed view) := by
  rw [Expr.listed_clause, hview.clause h, Option.toList_none, List.nil_append]

/-- **Spelling out shorthands** takes out nothing but literals. -/
theorem IsKept.listed_spellOutShorthands (hview : IsKept view)
    (hliteral : ∀ v o, view (.literal v o) = none) {e : Expr} (h : EveryClause PlainOperands e) :
    listed view (spellOutShorthands e) = listed view e := by
  refine listed_bottomUp hview.options hview.pairs ?_ ?_ h
  · intro op xs o h
    have hplain := ((everyClause_clause op xs o).mp h).1
    exact hview.view_map (.plain hplain)
      (fun x _ hx => (rearranges_optionsOfShorthand.isPlain x).trans hx) o
  · intro op xs o _ _
    rw [← bottomUp_clause_adopt, rearranges_optionsOfShorthand.bottomUp_clause]
    by_cases htrails : trailsShorthand op (xs.map (bottomUp (onClause optionsOfShorthand))) = true
    · obtain ⟨s, ys, x, c, hs, htakes, -, hxs, hc, hstep⟩ :=
        optionsOfShorthand_of_trails htrails o
      have hother := (name_of_takesOptions hs htakes).2.2
      have hx : listed view x = [] := by
        have hleaf := (isOptions_of_shorthand hc).1
        cases x with
        | literal v p => rw [listed_leaf rfl, hliteral, Option.toList_none]
        | _ => cases hleaf
      have hc : listed view c = [] := by
        obtain ⟨setting, -, rfl⟩ := Option.map_eq_some_iff.mp hc
        rw [listed_options, hview.options, List.flatMap_singleton, ofBool, listed_leaf rfl,
          hliteral]
        rfl
      rw [hstep, hxs, hview.listed_clause hother, hview.listed_clause hother, List.flatMap_append,
        List.flatMap_append, List.flatMap_singleton, List.flatMap_singleton, hx, hc]
    · rw [optionsOfShorthand_of_not (Bool.eq_false_iff.mpr htrails)]

/-- No clause that is negated, or negates another, is a conditional. -/
theorem isConditional_of_opposite {op opposite : String} (h : opposite? op = some opposite) :
    isConditional op = false ∧ isConditional opposite = false := by
  unfold opposite? at h
  split at h
  all_goals first | (cases h; exact ⟨rfl, rfl⟩) | cases h

/-- What remains of a negation shows what the negation shows. -/
theorem IsKept.listed_shortenNegation (hview : IsKept view) {op : String} {xs : List Expr}
    (o : Option Span) (hanchored : ∀ x ∈ xs, EveryClause AnchoredOperands x) :
    listed view ((shortenNegation op xs o).adoptOrigin o) = listed view (.clause op xs o) := by
  have hnot : isConditional "not" = false := rfl
  rcases shortenNegation_cases op xs o with
    ⟨-, hstep⟩ | ⟨x, p, rfl, rfl, hstep⟩ | ⟨f, opposite, ys, p, rfl, rfl, hopp, hstep⟩
  · rw [hstep]
    exact congrArg (listed view) (adoptOrigin_origin (.clause op xs o))
  · have hinner := (everyClause_clause _ _ _).mp (hanchored _ (List.mem_singleton_self _))
    have hx : Anchored x := hinner.1 x (List.mem_singleton_self x)
    rw [hstep, hx.adoptOrigin_eq, hview.listed_clause hnot, List.flatMap_singleton,
      hview.listed_clause hnot, List.flatMap_singleton]
  · obtain ⟨hf, hopposite⟩ := isConditional_of_opposite hopp
    have hkept : (Expr.clause opposite ys o).adoptOrigin o = .clause opposite ys o :=
      adoptOrigin_origin (.clause opposite ys o)
    rw [hstep, hkept, hview.listed_clause hopposite, hview.listed_clause hnot,
      List.flatMap_singleton, hview.listed_clause hf]

/-- **Folding negations** keeps the lists. -/
theorem IsKept.listed_foldNegations (hview : IsKept view) {e : Expr}
    (hspelled : EveryClause Spelled e) (hanchored : EveryClause AnchoredOperands e) :
    listed view (foldNegations e) = listed view e := by
  refine listed_bottomUp hview.options hview.pairs ?_ ?_
    (everyClause_and.mpr ⟨hspelled, hanchored⟩)
  · intro op xs o h
    obtain ⟨hop, hbelow⟩ := (everyClause_clause op xs o).mp (everyClause_and.mp h).1
    exact hview.view_map hop (fun x hx => (spelled_foldNegations (hbelow x hx)).2) o
  · intro op xs o h _
    have hbelow := ((everyClause_clause op xs o).mp (everyClause_and.mp h).2).2
    exact hview.listed_shortenNegation o
      (List.forall_mem_map.mpr fun x hx => (anchored_foldNegations (hbelow x hx)).1)

theorem listed_noOptions (hview : IsKept view) : listed view noOptions = [] := by
  rw [noOptions, listed_options, hview.options]
  rfl

theorem flatMap_pairUp : ∀ xs : List Expr,
    ((pairUp xs).1.flatMap fun p => listed view p.1 ++ listed view p.2) ++
      (pairUp xs).2.toList.flatMap (listed view) = xs.flatMap (listed view)
  | [] => rfl
  | [_] => rfl
  | test :: value :: rest => by
      simp only [pairUp, List.flatMap_cons, List.append_assoc, flatMap_pairUp rest]

/-- Grouped operands show what the operands show. -/
theorem IsKept.flatMap_groupCases (hview : IsKept view) (xs : List Expr) :
    (groupCases xs).flatMap (listed view) = xs.flatMap (listed view) := by
  rw [← flatMap_pairUp xs, groupCases]
  rcases pairUp xs with ⟨cases, _ | default⟩
  · simp [listed_pairs, hview.pairs]
  · simp [listed_pairs, listed_options, hview.pairs, hview.options]

/-- Options show nothing, so it does not matter where they stand. -/
theorem IsKept.flatMap_hoisted (hview : IsKept view) {op : String} {xs ys : List Expr}
    (hquiet : ∀ x ∈ xs, x.isOptions = true → listed view x = []) (h : Hoisted op xs ys) :
    ys.flatMap (listed view) = xs.flatMap (listed view) := by
  cases h with
  | kept => rfl
  | moved _ _ hfront hoptions _ =>
      subst hfront
      have hnone := hquiet _ (List.mem_append_right _ (List.mem_singleton_self _)) hoptions
      simp [hnone]
  | added => rw [List.flatMap_cons, listed_noOptions hview, List.nil_append]

/-- Arranging the operands of a clause keeps its list. -/
theorem IsKept.listed_arrangeClause (hview : IsKept view) {op : String} {xs : List Expr}
    (o : Option Span) (hplain : isConditional op = true → PlainOperands op xs)
    (hquiet : ∀ x ∈ xs, x.isOptions = true → listed view x = []) :
    listed view (arrangeClause op xs o) = listed view (.clause op xs o) := by
  unfold arrangeClause
  split
  · rename_i hop
    have hother : isConditional op = false := hop ▸ rfl
    unfold offsetOptions
    split
    · rw [hview.listed_clause hother, hview.listed_clause hother, List.flatMap_cons,
        listed_noOptions hview, List.nil_append]
    · rfl
  · split
    · rename_i hcond
      have hxs := hplain hcond
      rw [groupConditional, leadsWithPairs_of_plain hxs, hcond, Bool.not_false, Bool.and_self,
        if_pos rfl, Expr.listed_clause, Expr.listed_clause, hview.grouped hxs,
        hview.flatMap_groupCases]
    · rename_i hcond
      have hother := Bool.eq_false_iff.mpr hcond
      obtain ⟨ys, hys, hhoisted⟩ := exists_hoisted op xs o
      rw [hys, hview.listed_clause hother, hview.listed_clause hother,
        hview.flatMap_hoisted hquiet hhoisted]

/-- **Arranging** keeps the lists. -/
theorem IsKept.listed_arrange (hview : IsKept view) {e : Expr} (hspelled : EveryClause Spelled e)
    (hanchored : EveryClause AnchoredOperands e) : listed view (arrange e) = listed view e := by
  have hplain : ∀ x : Expr, x.isPlain = true → (arrange x).isPlain = true :=
    fun x hx => (rearranges_arrangeClause.isPlain x).trans hx
  refine listed_bottomUp hview.options hview.pairs ?_ ?_
    (everyClause_and.mpr ⟨hspelled, hanchored⟩)
  · intro op xs o h
    have hop := ((everyClause_clause op xs o).mp (everyClause_and.mp h).1).1
    exact hview.view_map hop (fun x _ => hplain x) o
  · intro op xs o h hxs
    have hop := ((everyClause_clause op xs o).mp (everyClause_and.mp h).1).1
    have hoperands := ((everyClause_clause op xs o).mp (everyClause_and.mp h).2).1
    rw [← bottomUp_clause_adopt, rearranges_arrangeClause.bottomUp_clause]
    refine hview.listed_arrangeClause o (fun hcond => ?_) (List.forall_mem_map.mpr fun x hx => ?_)
    · exact List.forall_mem_map.mpr fun x hx => hplain x (hop.plain_of_conditional hcond x hx)
    · rw [rearranges_arrangeClause.isOptions, hxs x hx]
      exact (hoperands x hx).listed_eq_nil hview

theorem IsKept.listed_wrapLiteral (hview : IsKept view) (e : Expr) :
    listed view (wrapLiteral e) = listed view e := by
  unfold wrapLiteral
  split
  · rw [hview.listed_clause rfl, List.flatMap_singleton]
  · rfl

/-- **Behind the first step** nothing that is shown is lost, doubled or moved. -/
theorem IsKept.listed_normalForm (hview : IsKept view) {e : Expr} (h : e.Written) :
    listed view (normalForm e) = listed view (spellOutShorthands e) := by
  have hspelled := spelled_spellOutShorthands h.raw.2
  have hanchored := anchored_spellOutShorthands h
  rw [normalForm_eq, hview.listed_wrapLiteral,
    hview.listed_arrange (spelled_foldNegations hspelled).1 (anchored_foldNegations hanchored).1,
    hview.listed_foldNegations hspelled hanchored]

end QueryFormula
