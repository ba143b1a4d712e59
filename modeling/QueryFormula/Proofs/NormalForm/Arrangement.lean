import QueryFormula.NormalForm
import QueryFormula.Proofs.Catalog
import QueryFormula.Proofs.Expr.Rearrange

/-!
# The arranging steps as one

Four steps of the normal form rearrange the operands of clauses (`Arranges`): all that they
write of their own is options with settings and groups of what was there, so a statement about
trees that holds of these (`HoldsOfWritten`) is kept by all four.  Where options go is said once,
by cases (`Hoisted`).

Completing offsets, grouping conditionals and hoisting options are about
different clauses: no operator is of two of these kinds.  So the three steps are
one walk through the tree (`hoist_group_complete`), which does to each clause
what its operator asks for (`arrangeClause`).
-/

namespace QueryFormula

open QueryFormula.Expr

/-! ### Where options go -/

/-- Options of a clause with many values need not move: they lead, or there are too few values. -/
def OptionsInPlace (op : String) (xs : List Expr) : Prop :=
  isSearch op = true → leadsWithOptions xs = true ∨ xs.length ≤ 2 ∨
    xs.length = 3 ∧ xs.getLast?.any Expr.isOptions = true

/-- What becomes of the operands of a clause when options go before many values. -/
inductive Hoisted (op : String) (xs : List Expr) : List Expr → Prop
  | kept (hplace : OptionsInPlace op xs) : Hoisted op xs xs
  | moved {front : List Expr} {last : Expr} (hsearch : isSearch op = true)
      (hlead : leadsWithOptions xs = false) (hxs : xs = front ++ [last])
      (hoptions : last.isOptions = true) (hmany : 2 < front.length) : Hoisted op xs (last :: front)
  | added (hsearch : isSearch op = true) (hlead : leadsWithOptions xs = false)
      (hvalue : xs.getLast?.any Expr.isOptions = false) (hmany : 2 < xs.length) :
      Hoisted op xs (noOptions :: xs)

/-- Everything that the step can do. -/
theorem exists_hoisted (op : String) (xs : List Expr) (o : Option Span) :
    ∃ ys, leadWithOptions op xs o = .clause op ys o ∧ Hoisted op xs ys := by
  simp only [leadWithOptions]
  split
  · rename_i hidle
    refine ⟨xs, rfl, .kept fun hsearch => .inl ?_⟩
    unfold isSearch at hsearch
    simpa only [hsearch, Bool.not_true, Bool.false_or] using hidle
  · rename_i hactive
    obtain ⟨hsearch, hlead⟩ : isSearch op = true ∧ leadsWithOptions xs = false := by
      simpa only [isSearch, Bool.or_eq_true, Bool.not_eq_true', not_or, Bool.not_eq_false,
        Bool.not_eq_true] using hactive
    cases hlast : xs.getLast? with
    | none =>
        have hxs := List.getLast?_eq_none_iff.mp hlast
        exact ⟨xs, rfl, .kept fun _ => .inr (.inl (hxs ▸ Nat.zero_le 2))⟩
    | some last =>
        -- the step counts operands with the last one, `Hoisted` without it
        obtain ⟨front, rfl⟩ := List.getLast?_eq_some_iff.mp hlast
        have hlength : (front ++ [last]).length = front.length + 1 := List.length_append
        simp only [List.dropLast_concat]
        split
        · rename_i hoptions
          split
          · exact ⟨_, rfl, .moved hsearch hlead rfl hoptions (by omega)⟩
          · refine ⟨_, rfl, .kept fun _ => .inr ?_⟩
            rw [hlast, Option.any_some]
            exact (Nat.lt_or_ge 2 _).symm.imp_right fun _ => ⟨by omega, hoptions⟩
        · rename_i hvalue
          split
          · rename_i hmany
            refine ⟨_, rfl, .added hsearch hlead ?_ hmany⟩
            rw [hlast, Option.any_some]
            exact Bool.eq_false_iff.mpr hvalue
          · exact ⟨_, rfl, .kept fun _ => .inr (.inl (by omega))⟩

theorem hoisted_of_leadWithOptions {op : String} {xs ys : List Expr} {o : Option Span}
    (h : leadWithOptions op xs o = .clause op ys o) : Hoisted op xs ys := by
  obtain ⟨zs, hzs, hhoisted⟩ := exists_hoisted op xs o
  cases h.symm.trans hzs
  exact hhoisted

/-- Where the options are in place, there is nothing to do. -/
theorem OptionsInPlace.leadWithOptions_eq {op : String} {xs : List Expr}
    (h : OptionsInPlace op xs) (o : Option Span) :
    leadWithOptions op xs o = .clause op xs o := by
  obtain ⟨ys, hys, hhoisted⟩ := exists_hoisted op xs o
  rw [hys]
  cases hhoisted with
  | kept => rfl
  | moved hsearch hlead hxs _ hmany =>
      have hlength : xs.length = _ + 1 := hxs ▸ List.length_append
      rcases h hsearch with hlead' | hfew | ⟨hfew, -⟩
      · cases hlead.symm.trans hlead'
      · omega
      · omega
  | added hsearch hlead hvalue hmany =>
      rcases h hsearch with hlead' | hfew | ⟨-, hoptions⟩
      · cases hlead.symm.trans hlead'
      · omega
      · cases hvalue.symm.trans hoptions

/-- Options that have gone to the front are in place. -/
theorem Hoisted.inPlace {op : String} {xs ys : List Expr} (h : Hoisted op xs ys) :
    OptionsInPlace op ys := by
  cases h with
  | kept hplace => exact hplace
  | moved _ _ _ hoptions _ => exact fun _ => .inl hoptions
  | added => exact fun _ => .inl rfl

/-! ### What the steps write -/

/-- Something holds of all that a step can write among the operands of a clause, if it holds of
the operands that go into it. -/
structure HoldsOfWritten (K : Expr → Prop) : Prop where
  noOptions : K noOptions
  setting : ∀ (key : String) (value : Bool) (o : Option Span), key ≠ "default" →
    K (.options [(key, .ofBool value)] o)
  cases : ∀ (ps : List (Expr × Expr)) (o : Option Span), (∀ p ∈ ps, K p.1 ∧ K p.2) →
    K (.pairs ps o)
  default : ∀ (x : Expr) (o : Option Span), K x → K (.options [("default", x)] o)

theorem holdsOfWritten_everyClause (L : String → List Expr → Prop) :
    HoldsOfWritten (EveryClause L) where
  noOptions := by simp [noOptions]
  setting := by simp [ofBool]
  cases := by simp
  default := by simp

variable {K : Expr → Prop}

/-- A shorthand stands for a setting. -/
theorem HoldsOfWritten.shorthandOptions (hK : HoldsOfWritten K) {x c : Expr}
    (hc : shorthandOptions? x = some c) : K c := by
  obtain ⟨⟨key, value⟩, hsetting, rfl⟩ := Option.map_eq_some_iff.mp hc
  refine hK.setting key value x.origin ?_
  unfold shorthandSetting? at hsetting
  split at hsetting <;> cases hsetting <;> decide

/-- Paired operands are operands. -/
theorem forall_mem_pairUp {P : Expr → Prop} : ∀ {xs : List Expr}, (∀ x ∈ xs, P x) →
    (∀ p ∈ (pairUp xs).1, P p.1 ∧ P p.2) ∧ ∀ x ∈ (pairUp xs).2, P x
  | [], _ => by simp [pairUp]
  | [x], h => by simpa [pairUp] using h
  | test :: value :: rest, h => by
      rw [List.forall_mem_cons, List.forall_mem_cons] at h
      obtain ⟨htest, hvalue, hrest⟩ := h
      obtain ⟨hcases, hdefault⟩ := forall_mem_pairUp hrest
      exact ⟨List.forall_mem_cons.mpr ⟨⟨htest, hvalue⟩, hcases⟩, hdefault⟩

/-- What holds of the operands holds of the groups that they make. -/
theorem HoldsOfWritten.groupCases (hK : HoldsOfWritten K) {xs : List Expr}
    (hxs : ∀ x ∈ xs, K x) : ∀ y ∈ groupCases xs, K y := by
  obtain ⟨hcases, hdefault⟩ := forall_mem_pairUp hxs
  unfold QueryFormula.groupCases
  rcases hpaired : pairUp xs with ⟨cases, default⟩
  rw [hpaired] at hcases hdefault
  have hgrouped : K (.pairs cases (operandsOrigin xs)) := hK.cases cases _ hcases
  cases default with
  | none => exact List.forall_mem_singleton.mpr hgrouped
  | some x =>
      exact List.forall_mem_cons.mpr
        ⟨hgrouped, List.forall_mem_singleton.mpr (hK.default x _ (hdefault x rfl))⟩

/-- The step makes a clause of the same operator, and writes nothing among its operands but
options and groups of operands. -/
def Arranges (g : ClauseStep) : Prop :=
  ∀ {K : Expr → Prop}, HoldsOfWritten K → ∀ (op : String) (xs : List Expr) (o : Option Span),
    (∀ x ∈ xs, K x) → ∃ ys, g op xs o = .clause op ys o ∧ ∀ y ∈ ys, K y

theorem Arranges.rearranges {g : ClauseStep} (hg : Arranges g) : Rearranges g := by
  have hK : HoldsOfWritten fun _ => True := by constructor <;> simp
  intro op xs o
  exact (hg hK op xs o fun _ _ => trivial).imp fun _ h => h.1

theorem Arranges.addsNoClause {g : ClauseStep} (hg : Arranges g) : AddsNoClause g := by
  intro L op xs o ys hys hxs
  obtain ⟨zs, hzs, hL⟩ := hg (holdsOfWritten_everyClause L) op xs o hxs
  cases hys.symm.trans hzs
  exact hL

/-- A step that rearranges turns a tree of one sort into a tree of another, if it does so at each
clause over operands that it has already been through. -/
theorem Arranges.everyClause {g : ClauseStep} (hg : Arranges g) {L L' : String → List Expr → Prop}
    {e : Expr} (h : EveryClause L e)
    (hstep : ∀ op xs o ys, L op xs →
      g op (xs.map (bottomUp (onClause g))) o = .clause op ys o → L' op ys) :
    EveryClause L' (bottomUp (onClause g) e) :=
  h.rearrange hg.rearranges hg.addsNoClause hstep

theorem arranges_optionsOfShorthand : Arranges optionsOfShorthand := by
  intro K hK op xs o hxs
  unfold optionsOfShorthand
  split
  · rename_i s c _ hc
    split
    · obtain ⟨x, -, hx⟩ := Option.bind_eq_some_iff.mp hc
      exact ⟨_, rfl, List.forall_mem_append.mpr
        ⟨fun y hy => hxs y (List.dropLast_subset xs hy),
          List.forall_mem_singleton.mpr (hK.shorthandOptions hx)⟩⟩
    · exact ⟨xs, rfl, hxs⟩
  · exact ⟨xs, rfl, hxs⟩

theorem arranges_offsetOptions : Arranges offsetOptions := by
  intro K hK op xs o hxs
  unfold offsetOptions
  split
  · exact ⟨_, rfl, List.forall_mem_cons.mpr ⟨hK.noOptions, hxs⟩⟩
  · exact ⟨xs, rfl, hxs⟩

theorem arranges_groupConditional : Arranges groupConditional := by
  intro K hK op xs o hxs
  unfold groupConditional
  split
  · exact ⟨_, rfl, hK.groupCases hxs⟩
  · exact ⟨xs, rfl, hxs⟩

theorem arranges_leadWithOptions : Arranges leadWithOptions := by
  intro K hK op xs o hxs
  obtain ⟨ys, hys, hhoisted⟩ := exists_hoisted op xs o
  refine ⟨ys, hys, ?_⟩
  cases hhoisted with
  | kept => exact hxs
  | moved _ _ hfront _ _ =>
      subst hfront
      obtain ⟨hbefore, hlast⟩ := List.forall_mem_append.mp hxs
      exact List.forall_mem_cons.mpr ⟨List.forall_mem_singleton.mp hlast, hbefore⟩
  | added => exact List.forall_mem_cons.mpr ⟨hK.noOptions, hxs⟩

theorem rearranges_optionsOfShorthand : Rearranges optionsOfShorthand :=
  arranges_optionsOfShorthand.rearranges

theorem rearranges_offsetOptions : Rearranges offsetOptions :=
  arranges_offsetOptions.rearranges

theorem rearranges_groupConditional : Rearranges groupConditional :=
  arranges_groupConditional.rearranges

theorem rearranges_leadWithOptions : Rearranges leadWithOptions :=
  arranges_leadWithOptions.rearranges

/-! ### Each step is about clauses of its own -/

theorem offsetOptions_of_ne {op : String} (h : op ≠ "offset") (xs : List Expr)
    (o : Option Span) : offsetOptions op xs o = .clause op xs o := by
  rw [offsetOptions, if_neg fun ⟨hop, _⟩ => h hop]

theorem groupConditional_of_not {op : String} (h : isConditional op = false) (xs : List Expr)
    (o : Option Span) : groupConditional op xs o = .clause op xs o := by
  simp [groupConditional, h]

theorem leadWithOptions_of_not {op : String} (h : isSearch op = false) (xs : List Expr)
    (o : Option Span) : leadWithOptions op xs o = .clause op xs o := by
  have hplace : OptionsInPlace op xs := fun hsearch => by cases h.symm.trans hsearch
  exact hplace.leadWithOptions_eq o

/-- Grouped cases are in first place. -/
theorem head?_groupCases (xs : List Expr) :
    (groupCases xs).head?.any Expr.isPairs = true := by
  unfold groupCases
  rcases pairUp xs with ⟨cases, _ | default⟩ <;> rfl

/-! ### What a walk through the operands leaves as it is -/

section Walk

variable {g : ClauseStep} (hg : Rearranges g)

include hg

theorem leadsWithOptions_map (xs : List Expr) :
    leadsWithOptions (xs.map (bottomUp (onClause g))) = leadsWithOptions xs := by
  cases xs with
  | nil => rfl
  | cons x xs => simp [leadsWithOptions, hg.isOptions]

theorem leadsWithPairs_map (xs : List Expr) :
    (xs.map (bottomUp (onClause g))).head?.any isPairs = xs.head?.any isPairs := by
  cases xs with
  | nil => rfl
  | cons x xs => simp [hg.isPairs]

theorem operandsOrigin_map (xs : List Expr) :
    operandsOrigin (xs.map (bottomUp (onClause g))) = operandsOrigin xs := by
  have horigin : ∀ x : Option Expr,
      (x.map (bottomUp (onClause g))).bind Expr.origin = x.bind Expr.origin := by
    intro x
    cases x with
    | none => rfl
    | some x => exact hg.origin x
  rw [operandsOrigin, operandsOrigin, List.head?_map, List.getLast?_map, horigin, horigin]

omit hg in
theorem pairUp_map (f : Expr → Expr) : ∀ xs : List Expr,
    pairUp (xs.map f) =
      ((pairUp xs).1.map fun p => (f p.1, f p.2), (pairUp xs).2.map f)
  | [] => rfl
  | [_] => rfl
  | test :: value :: rest => by
      simp only [List.map_cons, pairUp, pairUp_map f rest]

/-- Grouping operands and walking through them is walking through the operands
and grouping what comes of them. -/
theorem groupCases_map (xs : List Expr) :
    groupCases (xs.map (bottomUp (onClause g))) =
      (groupCases xs).map (bottomUp (onClause g)) := by
  unfold groupCases
  rw [pairUp_map, operandsOrigin_map hg]
  rcases pairUp xs with ⟨cases, _ | default⟩
  · simp
  · simp [hg.origin]

/-- A walk that leaves the clauses of an operator alone passes its completed
offset. -/
theorem bottomUp_offsetOptions {op : String} (hidle : ∀ ys o, g op ys o = .clause op ys o)
    (xs : List Expr) (o : Option Span) :
    bottomUp (onClause g) (offsetOptions op xs o) =
      offsetOptions op (xs.map (bottomUp (onClause g))) o := by
  unfold offsetOptions
  rw [leadsWithOptions_map hg]
  split
  · rw [hg.bottomUp_clause, hidle, List.map_cons]
    simp [noOptions]
  · rw [hg.bottomUp_clause, hidle]

/-- A walk that leaves the clauses of an operator alone passes its grouped
cases. -/
theorem bottomUp_groupConditional {op : String} (hidle : ∀ ys o, g op ys o = .clause op ys o)
    (xs : List Expr) (o : Option Span) :
    bottomUp (onClause g) (groupConditional op xs o) =
      groupConditional op (xs.map (bottomUp (onClause g))) o := by
  unfold groupConditional
  rw [leadsWithPairs_map hg]
  split
  · rw [hg.bottomUp_clause, hidle, groupCases_map hg]
  · rw [hg.bottomUp_clause, hidle]

end Walk

/-! ### One walk -/

/-- Options or groups for the operands, as the operator wants them. -/
def arrangeClause (op : String) (operands : List Expr) (origin : Option Span) : Expr :=
  if op = "offset" then offsetOptions op operands origin
  else if isConditional op then groupConditional op operands origin
  else leadWithOptions op operands origin

theorem arranges_arrangeClause : Arranges arrangeClause := by
  intro K hK op xs o hxs
  unfold arrangeClause
  split
  · exact arranges_offsetOptions hK op xs o hxs
  · split
    · exact arranges_groupConditional hK op xs o hxs
    · exact arranges_leadWithOptions hK op xs o hxs

theorem rearranges_arrangeClause : Rearranges arrangeClause :=
  arranges_arrangeClause.rearranges

/-- Arrange the operands of every clause. -/
def arrange : Expr → Expr :=
  Expr.bottomUp (Expr.onClause arrangeClause)

theorem completeOffsets_clause (op : String) (xs : List Expr) (o : Option Span) :
    completeOffsets (.clause op xs o) = offsetOptions op (xs.map completeOffsets) o :=
  rearranges_offsetOptions.bottomUp_clause op xs o

theorem groupConditionals_clause (op : String) (xs : List Expr) (o : Option Span) :
    groupConditionals (.clause op xs o) = groupConditional op (xs.map groupConditionals) o :=
  rearranges_groupConditional.bottomUp_clause op xs o

theorem hoistOptions_clause (op : String) (xs : List Expr) (o : Option Span) :
    hoistOptions (.clause op xs o) = leadWithOptions op (xs.map hoistOptions) o :=
  rearranges_leadWithOptions.bottomUp_clause op xs o

theorem arrange_clause (op : String) (xs : List Expr) (o : Option Span) :
    arrange (.clause op xs o) = arrangeClause op (xs.map arrange) o :=
  rearranges_arrangeClause.bottomUp_clause op xs o

/-- **One walk.**  The three arranging steps, one after the other, are one step. -/
theorem hoist_group_complete (e : Expr) :
    hoistOptions (groupConditionals (completeOffsets e)) = arrange e := by
  induction e with
  | literal v o => simp [hoistOptions, groupConditionals, completeOffsets, arrange]
  | reference k n o => simp [hoistOptions, groupConditionals, completeOffsets, arrange]
  | bound t o => simp [hoistOptions, groupConditionals, completeOffsets, arrange]
  | clause op xs o ih =>
      have hxs : ((xs.map completeOffsets).map groupConditionals).map hoistOptions =
          xs.map arrange := by
        rw [List.map_map, List.map_map]
        exact List.map_congr_left ih
      rw [completeOffsets_clause, arrange_clause, ← hxs, arrangeClause]
      by_cases hoffset : op = "offset"
      · -- the later steps have nothing to do at an offset
        subst hoffset
        rw [if_pos rfl, groupConditionals,
          bottomUp_offsetOptions rearranges_groupConditional (groupConditional_of_not rfl),
          hoistOptions,
          bottomUp_offsetOptions rearranges_leadWithOptions
            (leadWithOptions_of_not isSearch_offset)]
      · rw [offsetOptions_of_ne hoffset, groupConditionals_clause, if_neg hoffset]
        by_cases hcond : isConditional op = true
        · rw [if_pos hcond, hoistOptions,
            bottomUp_groupConditional rearranges_leadWithOptions
              (leadWithOptions_of_not (isSearch_of_isConditional hcond))]
        · rw [if_neg hcond, groupConditional_of_not (Bool.eq_false_iff.mpr hcond),
            hoistOptions_clause]
  | options es o ih =>
      simp only [hoistOptions, groupConditionals, completeOffsets, arrange, bottomUp_options,
        List.map_map] at ih ⊢
      congr 1
      exact List.map_congr_left fun e he => Prod.ext rfl (ih e he)
  | pairs ps o ih =>
      simp only [hoistOptions, groupConditionals, completeOffsets, arrange, bottomUp_pairs,
        List.map_map] at ih ⊢
      congr 1
      exact List.map_congr_left fun p hp => Prod.ext (ih p hp).1 (ih p hp).2

/-- The normal form in four steps. -/
theorem normalForm_eq (e : Expr) :
    normalForm e = wrapLiteral (arrange (foldNegations (spellOutShorthands e))) := by
  rw [← hoist_group_complete]
  rfl

end QueryFormula
