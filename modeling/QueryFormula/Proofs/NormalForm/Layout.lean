import QueryFormula.Proofs.NormalForm.Negation
import QueryFormula.Proofs.NormalForm.Shorthand

/-!
# The shape of a normal form

A raw tree has plain operands only.  Behind the first two steps a clause with
options may have settings in last place (`Spelled`); behind all steps options
and grouped cases stand where the operator of the clause wants them and nowhere
else (`Arranged`).
-/

namespace QueryFormula

open QueryFormula.Expr

/-- An options object whose values are literals. -/
def IsSettings : Expr → Prop
  | .options entries _ => ∀ entry ∈ entries, entry.2.isLiteral = true
  | _ => False

theorem IsSettings.isOptions {c : Expr} (h : IsSettings c) : c.isOptions = true := by
  cases c with
  | options es o => rfl
  | _ => cases h

theorem isSettings_noOptions : IsSettings noOptions :=
  fun _ h => absurd h List.not_mem_nil

/-- The operands of a clause once shorthands are spelled out. -/
inductive Spelled (op : String) : List Expr → Prop
  | plain {xs : List Expr} (plain : PlainOperands op xs) : Spelled op xs
  /-- Settings behind the declared arguments. -/
  | trailing {s : Signature} {xs : List Expr} {settings : Expr} (plain : PlainOperands op xs)
      (found : signature? op = some s) (takes : s.takesOptions = true)
      (declared : s.parameters.length ≤ xs.length) (is : IsSettings settings) :
      Spelled op (xs ++ [settings])

/-- The operands of a clause in normal form. -/
inductive Arranged (op : String) : List Expr → Prop
  | plain {xs : List Expr} (plain : PlainOperands op xs) (offset : op ≠ "offset")
      (conditional : isConditional op = false) (few : isSearch op = true → xs.length ≤ 2) :
      Arranged op xs
  /-- Settings behind the declared arguments, and no more than two values if there
  can be any number. -/
  | trailing {s : Signature} {xs : List Expr} {settings : Expr} (plain : PlainOperands op xs)
      (found : signature? op = some s) (takes : s.takesOptions = true)
      (few : isSearch op = true → xs.length ≤ 2) (declared : s.parameters.length ≤ xs.length)
      (is : IsSettings settings) : Arranged op (xs ++ [settings])
  /-- Settings before more than two values. -/
  | leading {xs : List Expr} {settings : Expr} (plain : PlainOperands op xs)
      (search : isSearch op = true) (many : 2 < xs.length) (is : IsSettings settings) :
      Arranged op (settings :: xs)
  | offset {xs : List Expr} (is : op = "offset") (plain : PlainOperands op xs) :
      Arranged op (noOptions :: xs)
  | cases {ps : List (Expr × Expr)} {place : Option Span} (conditional : isConditional op = true)
      (plain : ∀ p ∈ ps, p.1.isPlain = true ∧ p.2.isPlain = true) :
      Arranged op [.pairs ps place]
  | casesDefault {ps : List (Expr × Expr)} {place spot : Option Span} {default : Expr}
      (conditional : isConditional op = true)
      (plain : ∀ p ∈ ps, p.1.isPlain = true ∧ p.2.isPlain = true)
      (plainDefault : default.isPlain = true) :
      Arranged op [.pairs ps place, .options [("default", default)] spot]

/-! ### Shorthands -/

theorem Expr.Rearranges.isPlain {g : ClauseStep} (hg : Rearranges g) (e : Expr) :
    (bottomUp (onClause g) e).isPlain = e.isPlain := by
  rw [Expr.isPlain, Expr.isPlain, hg.isOptions, hg.isPairs]

/-- There is nothing in settings for a walk through clauses. -/
theorem IsSettings.bottomUp_eq {c : Expr} (h : IsSettings c) (g : ClauseStep) :
    bottomUp (onClause g) c = c := by
  cases c with
  | options es o =>
      have hnone : EveryClause (fun _ _ => False) (.options es o) := by
        refine (everyClause_options es o).mpr fun e he => ?_
        have hliteral := h e he
        rcases e with ⟨k, e⟩
        cases e with
        | literal v p => exact everyClause_literal v p
        | _ => cases hliteral
      exact bottomUp_eq_self (fun _ _ _ hop => absurd hop id) hnone
  | _ => cases h

/-- What a walk that keeps plain operands plain makes of spelled-out operands. -/
theorem Spelled.map {op : String} {xs : List Expr} (h : Spelled op xs) {g : ClauseStep}
    (hplain : ∀ x ∈ xs, x.isPlain = true → (bottomUp (onClause g) x).isPlain = true) :
    Spelled op (xs.map (bottomUp (onClause g))) := by
  have hmap : ∀ ys : List Expr, (∀ y ∈ ys, y ∈ xs) → PlainOperands op ys →
      PlainOperands op (ys.map (bottomUp (onClause g))) := by
    intro ys hys hplains y hy
    obtain ⟨x, hx, rfl⟩ := List.mem_map.mp hy
    exact hplain x (hys x hx) (hplains x hx)
  cases h with
  | plain hplains => exact .plain (hmap xs (fun _ hx => hx) hplains)
  | @trailing s ys c hplains hfound htakes hdeclared his =>
      rw [List.map_append, List.map_singleton, his.bottomUp_eq]
      refine .trailing (hmap ys (fun y hy => List.mem_append_left _ hy) hplains) hfound htakes
        ?_ his
      rw [List.length_map]
      exact hdeclared

/-- The options that a shorthand stands for are settings. -/
theorem isSettings_of_shorthand {x c : Expr} (h : shorthandOptions? x = some c) :
    IsSettings c := by
  obtain ⟨setting, -, rfl⟩ := Option.map_eq_some_iff.mp h
  intro e he
  rw [List.mem_singleton.mp he]
  rfl

/-- **The first step** puts settings in last place, or nothing. -/
theorem spelled_spellOutShorthands {e : Expr} (h : EveryClause PlainOperands e) :
    EveryClause Spelled (spellOutShorthands e) := by
  refine arranges_optionsOfShorthand.everyClause h fun op xs o ys hplain hys => ?_
  have hmap : PlainOperands op (xs.map (bottomUp (onClause optionsOfShorthand))) := by
    intro y hy
    obtain ⟨x, hx, rfl⟩ := List.mem_map.mp hy
    exact (rearranges_optionsOfShorthand.isPlain x).trans (hplain x hx)
  by_cases htrails : trailsShorthand op (xs.map (bottomUp (onClause optionsOfShorthand))) = true
  · obtain ⟨s, zs, x, c, hs, htakes, hdeclared, hzs, hc, hstep⟩ :=
      optionsOfShorthand_of_trails htrails o
    rw [hstep] at hys
    rw [hzs] at hmap
    cases hys
    exact .trailing (fun z hz => hmap z (List.mem_append_left _ hz)) hs htakes hdeclared
      (isSettings_of_shorthand hc)
  · rw [optionsOfShorthand_of_not (Bool.eq_false_iff.mpr htrails)] at hys
    cases hys
    exact .plain hmap

/-! ### Negations -/

/-- A clause and its opposite want the same operands. -/
theorem signature?_opposite {op opposite : String} (h : opposite? op = some opposite) :
    (signature? opposite).map (fun s => (s.takesOptions, s.parameters.length)) =
      (signature? op).map fun s => (s.takesOptions, s.parameters.length) := by
  unfold opposite? at h
  split at h
  all_goals first | (cases h; rfl) | cases h

theorem Spelled.opposite {op opposite : String} (hopp : opposite? op = some opposite)
    {xs : List Expr} (h : Spelled op xs) : Spelled opposite xs := by
  cases h with
  | plain hplain => exact .plain hplain
  | trailing hplain hfound htakes hdeclared his =>
      have hsame := signature?_opposite hopp
      rw [hfound, Option.map_some] at hsame
      obtain ⟨s, hs, hshape⟩ := Option.map_eq_some_iff.mp hsame
      injection hshape with hoptions hlength
      exact .trailing hplain hs (hoptions.trans htakes) (hlength ▸ hdeclared) his

/-- The operand of a `not` is plain. -/
theorem Spelled.plain_of_not {x : Expr} (h : Spelled "not" [x]) : x.isPlain = true := by
  generalize hxs : [x] = xs at h
  cases h with
  | plain hplain => exact hplain x (hxs ▸ List.mem_singleton_self x)
  | trailing _ hfound htakes _ _ => exact absurd rfl (name_of_takesOptions hfound htakes).1

@[simp] theorem Expr.isPlain_adoptOrigin (e : Expr) (o : Option Span) :
    (e.adoptOrigin o).isPlain = e.isPlain := by
  cases e <;> rename_i p <;> cases p <;> rfl

/-- What becomes of a clause when its negation is folded is plain, and spelled as
before. -/
theorem spelled_shortenNegation {op : String} {xs : List Expr} {o : Option Span}
    (hop : Spelled op xs) (hxs : ∀ x ∈ xs, EveryClause Spelled x) :
    EveryClause Spelled (shortenNegation op xs o) ∧
      (shortenNegation op xs o).isPlain = true := by
  rcases shortenNegation_cases op xs o with
    ⟨-, hstep⟩ | ⟨x, p, -, hnot, hstep⟩ | ⟨f, opposite, ys, p, -, hneg, hopp, hstep⟩
  · exact hstep ▸ ⟨(everyClause_clause op xs o).mpr ⟨hop, hxs⟩, rfl⟩
  · have hinner := hxs _ (hnot ▸ List.mem_singleton_self _)
    rw [everyClause_clause] at hinner
    exact hstep ▸ ⟨hinner.2 x (List.mem_singleton_self x), hinner.1.plain_of_not⟩
  · have hinner := hxs _ (hneg ▸ List.mem_singleton_self _)
    rw [everyClause_clause] at hinner
    exact hstep ▸
      ⟨(everyClause_clause opposite ys o).mpr ⟨hinner.1.opposite hopp, hinner.2⟩, rfl⟩

/-- **The second step** keeps the operands as they are spelled, and keeps plain
nodes plain. -/
theorem spelled_foldNegations {e : Expr} (h : EveryClause Spelled e) :
    EveryClause Spelled (foldNegations e) ∧
      (e.isPlain = true → (foldNegations e).isPlain = true) := by
  refine everyClause_bottomUp_keeping (K := fun x => x.isPlain = true)
    (fun op xs o hroot hxs => ?_) (fun _ _ hplain => ?_) (fun _ _ hplain => ?_) h
  · have hspelled : Spelled op (xs.map foldNegations) := hroot.map fun x hx => (hxs x hx).2
    obtain ⟨hclauses, hplain⟩ := spelled_shortenNegation (o := o) hspelled
      (List.forall_mem_map.mpr fun x hx => (hxs x hx).1)
    exact ⟨hclauses, fun _ => (isPlain_adoptOrigin _ o).trans hplain⟩
  · cases hplain
  · cases hplain

/-! ### Options and groups -/

theorem isOptions_of_isPlain {x : Expr} (h : x.isPlain = true) : x.isOptions = false := by
  rw [isPlain, Bool.and_eq_true, Bool.not_eq_true'] at h
  exact h.1

theorem isPairs_of_isPlain {x : Expr} (h : x.isPlain = true) : x.isPairs = false := by
  rw [isPlain, Bool.and_eq_true, Bool.not_eq_true', Bool.not_eq_true'] at h
  exact h.2

theorem leadsWithOptions_of_plain {op : String} {xs : List Expr} (h : PlainOperands op xs) :
    leadsWithOptions xs = false := by
  cases xs with
  | nil => rfl
  | cons x xs => exact isOptions_of_isPlain (h x List.mem_cons_self)

theorem leadsWithPairs_of_plain {op : String} {xs : List Expr} (h : PlainOperands op xs) :
    xs.head?.any Expr.isPairs = false := by
  cases xs with
  | nil => rfl
  | cons x xs => exact isPairs_of_isPlain (h x List.mem_cons_self)

/-- Plain operands in groups. -/
theorem arranged_groupCases {op : String} {xs : List Expr} (hcond : isConditional op = true)
    (h : PlainOperands op xs) : Arranged op (groupCases xs) := by
  obtain ⟨hcases, hdefault⟩ := forall_mem_pairUp h
  unfold groupCases
  rcases hpaired : pairUp xs with ⟨cases, _ | default⟩
  · rw [hpaired] at hcases
    exact .cases hcond hcases
  · rw [hpaired] at hcases hdefault
    exact .casesDefault hcond hcases (hdefault default rfl)

/-- Plain values have no options in last place. -/
theorem getLast?_isOptions_of_plain {op : String} {xs : List Expr} (h : PlainOperands op xs) :
    xs.getLast?.any Expr.isOptions = false := by
  cases hlast : xs.getLast? with
  | none => rfl
  | some last => exact isOptions_of_isPlain (h last (List.mem_of_getLast? hlast))

/-- Options for plain values, once there are more than two. -/
theorem Hoisted.arranged_plain {op : String} {xs ys : List Expr} (h : Hoisted op xs ys)
    (hoffset : op ≠ "offset") (hcond : isConditional op = false) (hplain : PlainOperands op xs) :
    Arranged op ys := by
  have hlead := leadsWithOptions_of_plain hplain
  have hlast := getLast?_isOptions_of_plain hplain
  cases h with
  | kept hplace =>
      refine .plain hplain hoffset hcond fun hsearch => ?_
      rcases hplace hsearch with hlead' | hfew | ⟨-, hlast'⟩
      · cases hlead.symm.trans hlead'
      · exact hfew
      · cases hlast.symm.trans hlast'
  | moved _ _ hfront hoptions _ =>
      rw [hfront, List.getLast?_concat] at hlast
      cases hlast.symm.trans hoptions
  | added hsearch _ _ hmany => exact .leading hplain hsearch hmany isSettings_noOptions

/-- Settings go before the values, once there are more than two. -/
theorem Hoisted.arranged_trailing {op : String} {s : Signature} {xs ys : List Expr}
    {settings : Expr} (h : Hoisted op (xs ++ [settings]) ys) (hplain : PlainOperands op xs)
    (hs : signature? op = some s) (htakes : s.takesOptions = true)
    (hdeclared : s.parameters.length ≤ xs.length) (his : IsSettings settings) :
    Arranged op ys := by
  cases h with
  | kept hplace =>
      refine .trailing hplain hs htakes (fun hsearch => ?_) hdeclared his
      have hlength : (xs ++ [settings]).length = xs.length + 1 := List.length_append
      rcases hplace hsearch with hlead | hfew | ⟨hfew, -⟩
      · cases xs with
        | nil => exact Nat.zero_le 2
        | cons x xs => cases (leadsWithOptions_of_plain hplain).symm.trans hlead
      · omega
      · omega
  | moved hsearch _ hfront _ hmany =>
      obtain ⟨rfl, hlast⟩ := List.append_inj' hfront rfl
      cases hlast
      exact .leading hplain hsearch hmany his
  | added _ _ hvalue _ =>
      rw [List.getLast?_concat, Option.any_some, his.isOptions] at hvalue
      cases hvalue

/-- **The arranging steps**, at a clause. -/
theorem arranged_of_arrangeClause {op : String} {xs ys : List Expr} {o : Option Span}
    (h : Spelled op xs) (hys : arrangeClause op xs o = .clause op ys o) : Arranged op ys := by
  cases h with
  | plain hplain =>
      unfold arrangeClause at hys
      split at hys
      · rename_i hoffset
        rw [offsetOptions, leadsWithOptions_of_plain hplain, if_pos ⟨hoffset, rfl⟩] at hys
        cases hys
        exact .offset hoffset hplain
      · rename_i hoffset
        split at hys
        · rename_i hcond
          rw [groupConditional, leadsWithPairs_of_plain hplain, hcond, Bool.not_false,
            Bool.and_self, if_pos rfl] at hys
          cases hys
          exact arranged_groupCases hcond hplain
        · rename_i hcond
          exact (hoisted_of_leadWithOptions hys).arranged_plain hoffset
            (Bool.eq_false_iff.mpr hcond) hplain
  | trailing hplain hfound htakes hdeclared his =>
      obtain ⟨-, hoffset, hcond⟩ := name_of_takesOptions hfound htakes
      rw [arrangeClause, if_neg hoffset, hcond, if_neg Bool.false_ne_true] at hys
      exact (hoisted_of_leadWithOptions hys).arranged_trailing hplain hfound htakes hdeclared his

/-- **The arranging steps** put options and groups in their places. -/
theorem arranged_arrange {e : Expr} (h : EveryClause Spelled e) :
    EveryClause Arranged (arrange e) :=
  arranges_arrangeClause.everyClause h fun _ _ _ _ hspelled hys =>
    arranged_of_arrangeClause
      (hspelled.map fun x _ hx => (rearranges_arrangeClause.isPlain x).trans hx) hys

/-- The operands of a conditional are grouped. -/
theorem Arranged.grouped {op : String} {xs : List Expr} (h : Arranged op xs)
    (hcond : isConditional op = true) :
    (∃ ps place, xs = [.pairs ps place] ∧
      ∀ p ∈ ps, p.1.isPlain = true ∧ p.2.isPlain = true) ∨
    (∃ ps place default spot, xs = [.pairs ps place, .options [("default", default)] spot] ∧
      (∀ p ∈ ps, p.1.isPlain = true ∧ p.2.isPlain = true) ∧ default.isPlain = true) := by
  cases h with
  | plain _ _ hnot => cases hnot.symm.trans hcond
  | trailing _ hfound htakes =>
      cases (name_of_takesOptions hfound htakes).2.2.symm.trans hcond
  | leading _ hsearch => cases (isSearch_of_isConditional hcond).symm.trans hsearch
  | offset hop =>
      subst hop
      cases hcond
  | cases _ hplain => exact .inl ⟨_, _, rfl, hplain⟩
  | casesDefault _ hplain hdefault => exact .inr ⟨_, _, _, _, rfl, hplain, hdefault⟩

/-- **The normal form of a raw tree** is arranged, and it is a plain node. -/
theorem arranged_normalForm {e : Expr} (h : e.Raw) :
    EveryClause Arranged (normalForm e) ∧ (normalForm e).isPlain = true := by
  obtain ⟨hplain, hclauses⟩ := h
  have hspelled := spelled_spellOutShorthands hclauses
  have hplain' : (spellOutShorthands e).isPlain = true :=
    (rearranges_optionsOfShorthand.isPlain e).trans hplain
  obtain ⟨hfolded, hplain''⟩ := spelled_foldNegations hspelled
  have harranged := arranged_arrange hfolded
  have hroot := (rearranges_arrangeClause.isPlain _).trans (hplain'' hplain')
  rw [normalForm_eq]
  by_cases hliteral : (arrange (foldNegations (spellOutShorthands e))).isLiteral = true
  · rw [wrapLiteral, if_pos hliteral]
    refine ⟨(everyClause_clause _ _ _).mpr
      ⟨?_, List.forall_mem_singleton.mpr harranged⟩, rfl⟩
    exact .plain (List.forall_mem_singleton.mpr hroot) (by decide) (by decide)
      fun _ => Nat.le_succ 1
  · rw [wrapLiteral, if_neg hliteral]
    exact ⟨harranged, hroot⟩

end QueryFormula
