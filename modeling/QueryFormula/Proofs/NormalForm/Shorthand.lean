import QueryFormula.Proofs.NormalForm.Arrangement

/-!
# Shorthands

A shorthand becomes options where it is the last operand of a clause with options
and stands behind the declared arguments (`trailsShorthand`).  Spelling out
leaves none there, and does nothing where none is there; it never gives an equal
tree when it finds one (`noShorthandLeft_of_sameTree`).
-/

namespace QueryFormula

open QueryFormula.Expr

/-- The last operand is a shorthand behind the declared arguments of a clause with
options. -/
def trailsShorthand (op : String) (operands : List Expr) : Bool :=
  (signature? op).any (fun s => s.takesOptions && s.parameters.length < operands.length) &&
    (operands.getLast?.bind shorthandSetting?).isSome

/-- A clause without a trailing shorthand stays. -/
theorem optionsOfShorthand_of_not {op : String} {xs : List Expr}
    (h : trailsShorthand op xs = false) (o : Option Span) :
    optionsOfShorthand op xs o = .clause op xs o := by
  unfold optionsOfShorthand
  split
  · rename_i s c hs hc
    obtain ⟨x, hx, hc⟩ := Option.bind_eq_some_iff.mp hc
    obtain ⟨setting, hsetting, rfl⟩ := Option.map_eq_some_iff.mp hc
    rw [trailsShorthand, hs, hx, Option.any_some, Option.bind_some, hsetting,
      Option.isSome_some, Bool.and_true] at h
    rw [if_neg (by simpa using h)]
  · rfl

/-- **A trailing shorthand** becomes options in its place. -/
theorem optionsOfShorthand_of_trails {op : String} {xs : List Expr}
    (h : trailsShorthand op xs = true) (o : Option Span) :
    ∃ s ys x c, signature? op = some s ∧ s.takesOptions = true ∧
      s.parameters.length ≤ ys.length ∧ xs = ys ++ [x] ∧ shorthandOptions? x = some c ∧
      optionsOfShorthand op xs o = .clause op (ys ++ [c]) o := by
  obtain ⟨hany, hlast⟩ := Bool.and_eq_true_iff.mp h
  obtain ⟨setting, hfound⟩ := Option.isSome_iff_exists.mp hlast
  obtain ⟨x, hx, hsetting⟩ := Option.bind_eq_some_iff.mp hfound
  obtain ⟨ys, rfl⟩ := List.getLast?_eq_some_iff.mp hx
  have hc : shorthandOptions? x =
      some (.options [(setting.1, .ofBool setting.2)] x.origin) := by
    rw [shorthandOptions?, hsetting]
    rfl
  cases hs : signature? op with
  | none => rw [hs] at hany; cases hany
  | some s =>
      rw [hs, Option.any_some] at hany
      refine ⟨s, ys, x, _, rfl, ?_, ?_, rfl, hc, ?_⟩
      · exact (Bool.and_eq_true_iff.mp hany).1
      · have hlength := of_decide_eq_true (Bool.and_eq_true_iff.mp hany).2
        rw [List.length_append, List.length_singleton] at hlength
        omega
      · simp only [optionsOfShorthand, hs, List.getLast?_concat, Option.bind_some, hc, hany,
          if_true, List.dropLast_concat]

theorem optionsOfShorthand_not (xs : List Expr) (o : Option Span) :
    optionsOfShorthand "not" xs o = .clause "not" xs o := by
  refine optionsOfShorthand_of_not (Bool.eq_false_iff.mpr fun h => ?_) o
  obtain ⟨s, -, -, -, hs, htakes, -⟩ := optionsOfShorthand_of_trails h o
  exact (name_of_takesOptions hs htakes).1 rfl

/-- The options that a shorthand stands for are options. -/
theorem isOptions_of_shorthand {x c : Expr} (h : shorthandOptions? x = some c) :
    x.isLiteral = true ∧ c.isOptions = true := by
  unfold shorthandOptions? shorthandSetting? at h
  split at h
  · cases h
    exact ⟨rfl, rfl⟩
  · cases h
    exact ⟨rfl, rfl⟩
  · cases h

/-- What the first step writes is no shorthand, so it has no second part. -/
theorem trailsShorthand_optionsOfShorthand {op : String} {xs ys : List Expr} {o : Option Span}
    (h : optionsOfShorthand op xs o = .clause op ys o) : trailsShorthand op ys = false := by
  by_cases htrails : trailsShorthand op xs = true
  · obtain ⟨s, zs, x, c, -, -, -, -, hc, hstep⟩ := optionsOfShorthand_of_trails htrails o
    rw [hstep] at h
    injection h with _ hys
    have hsetting : shorthandSetting? c = none := by
      have hoptions := (isOptions_of_shorthand hc).2
      cases c with
      | options es p => rfl
      | _ => cases hoptions
    rw [← hys, trailsShorthand, List.getLast?_concat, Option.bind_some, hsetting,
      Option.isSome_none, Bool.and_false]
  · rw [optionsOfShorthand_of_not (Bool.eq_false_iff.mpr htrails)] at h
    injection h with _ hys
    exact hys ▸ Bool.eq_false_iff.mpr htrails

/-- No clause of the tree has a shorthand in last place, behind its declared
arguments. -/
def NoShorthandLeft (e : Expr) : Prop :=
  EveryClause (fun op operands => trailsShorthand op operands = false) e

/-- The first step leaves no shorthand in such a place. -/
theorem noShorthandLeft_spellOutShorthands (e : Expr) :
    NoShorthandLeft (spellOutShorthands e) :=
  arranges_optionsOfShorthand.everyClause (everyClause_true e)
    fun _ _ _ _ _ h => trailsShorthand_optionsOfShorthand h

/-- Without a shorthand in such a place the first step does nothing. -/
theorem spellOutShorthands_of_noShorthandLeft {e : Expr} (h : NoShorthandLeft e) :
    spellOutShorthands e = e :=
  bottomUp_eq_self (fun _ _ o hop => optionsOfShorthand_of_not hop o) h

/-- Equal lists of operands, one of them rebuilt, are equal one by one. -/
theorem sameTree_of_sameTrees_map {f : Expr → Expr} : ∀ {xs : List Expr},
    sameTrees (xs.map f) xs = true → ∀ x ∈ xs, (f x).sameTree x = true
  | [], _ => fun _ hx => absurd hx List.not_mem_nil
  | x :: xs, h => by
      rw [List.map_cons, sameTrees, Bool.and_eq_true] at h
      exact List.forall_mem_cons.mpr ⟨h.1, sameTree_of_sameTrees_map h.2⟩

/-- Equal lists of operands, the last ones not rebuilt, have equal last ones. -/
theorem sameTree_of_sameTrees_concat {f : Expr → Expr} {x y : Expr} : ∀ {xs : List Expr},
    sameTrees (xs.map f ++ [y]) (xs ++ [x]) = true → y.sameTree x = true
  | [], h => by simpa [sameTrees] using h
  | z :: xs, h => by
      rw [List.map_cons, List.cons_append, List.cons_append, sameTrees, Bool.and_eq_true] at h
      exact sameTree_of_sameTrees_concat h.2

theorem sameTree_of_sameEntries_map {f : Expr → Expr} : ∀ {es : List (String × Expr)},
    sameEntries (es.map fun e => (e.1, f e.2)) es = true → ∀ e ∈ es, (f e.2).sameTree e.2 = true
  | [], _ => fun _ he => absurd he List.not_mem_nil
  | e :: es, h => by
      rw [List.map_cons, sameEntries, Bool.and_eq_true, Bool.and_eq_true] at h
      exact List.forall_mem_cons.mpr ⟨h.1.2, sameTree_of_sameEntries_map h.2⟩

theorem sameTree_of_samePairs_map {f : Expr → Expr} : ∀ {ps : List (Expr × Expr)},
    samePairs (ps.map fun p => (f p.1, f p.2)) ps = true →
      ∀ p ∈ ps, (f p.1).sameTree p.1 = true ∧ (f p.2).sameTree p.2 = true
  | [], _ => fun _ hp => absurd hp List.not_mem_nil
  | p :: ps, h => by
      rw [List.map_cons, samePairs, Bool.and_eq_true, Bool.and_eq_true] at h
      exact List.forall_mem_cons.mpr ⟨⟨h.1.1, h.1.2⟩, sameTree_of_samePairs_map h.2⟩

/-- Whether a shorthand is last is not changed by a walk through the operands. -/
theorem trailsShorthand_map {g : ClauseStep} (hg : Rearranges g) (op : String)
    (xs : List Expr) :
    trailsShorthand op (xs.map (bottomUp (onClause g))) = trailsShorthand op xs := by
  have hlast : (xs.map (bottomUp (onClause g))).getLast?.bind shorthandSetting? =
      xs.getLast?.bind shorthandSetting? := by
    rw [List.getLast?_map]
    cases xs.getLast? with
    | none => rfl
    | some x =>
        exact hg.keeps shorthandSetting? (fun _ _ _ _ => rfl) (fun _ _ _ => rfl)
          (fun _ _ _ => rfl) x
  rw [trailsShorthand, trailsShorthand, hlast, List.length_map]

/-- **Spelling out shows.**  If the first step gives an equal tree, there was
nothing to spell out. -/
theorem noShorthandLeft_of_sameTree {e : Expr} (h : (spellOutShorthands e).sameTree e = true) :
    NoShorthandLeft e := by
  induction e with
  | literal v o => exact everyClause_literal v o
  | reference k n o => exact everyClause_reference k n o
  | bound t o => exact everyClause_bound t o
  | clause op xs o ih =>
      rw [spellOutShorthands, rearranges_optionsOfShorthand.bottomUp_clause] at h
      by_cases htrails : trailsShorthand op xs = true
      · -- the last operand is a literal before the step and an options object behind it
        rw [← trailsShorthand_map rearranges_optionsOfShorthand] at htrails
        obtain ⟨s, ys, x, c, -, -, -, hmap, hc, hstep⟩ := optionsOfShorthand_of_trails htrails o
        obtain ⟨zs, last, rfl, rfl, hlast⟩ := List.map_eq_append_iff.mp hmap
        obtain ⟨z, rfl, rfl⟩ := List.map_eq_singleton_iff.mp hlast
        rw [hstep, sameTree, Bool.and_eq_true] at h
        have hsame := sameTree_of_sameTrees_concat h.2
        obtain ⟨hliteral, hoptions⟩ := isOptions_of_shorthand hc
        rw [rearranges_optionsOfShorthand.isLiteral] at hliteral
        cases z with
        | literal v p =>
            cases c with
            | options es q => cases hsame
            | _ => cases hoptions
        | _ => cases hliteral
      · have hnot := Bool.eq_false_iff.mpr htrails
        have hmap := (trailsShorthand_map rearranges_optionsOfShorthand op xs).trans hnot
        rw [optionsOfShorthand_of_not hmap, sameTree, Bool.and_eq_true] at h
        have hxs := sameTree_of_sameTrees_map h.2
        exact (everyClause_clause op xs o).mpr ⟨hnot, fun x hx => ih x hx (hxs x hx)⟩
  | options es o ih =>
      rw [spellOutShorthands, bottomUp_options, sameTree] at h
      exact (everyClause_options es o).mpr fun e he =>
        ih e he (sameTree_of_sameEntries_map h e he)
  | pairs ps o ih =>
      rw [spellOutShorthands, bottomUp_pairs, sameTree] at h
      exact (everyClause_pairs ps o).mpr fun p hp =>
        ⟨(ih p hp).1 (sameTree_of_samePairs_map h p hp).1,
          (ih p hp).2 (sameTree_of_samePairs_map h p hp).2⟩

end QueryFormula
