import QueryFormula.Proofs.NormalForm.Layout
import QueryFormula.Proofs.Resolution.Governed
import QueryFormula.Proofs.Resolution.Success

/-!
# What is resolved is checked

Where a binder binds every name, the resolved normal form of a raw tree is
checked, by induction on the tree.  The step is at a clause: its operands are
arranged, so what resolution passes over are settings, without a name in them,
and spare operands.
-/

namespace QueryFormula

open QueryFormula.Expr

/-- What the binder answers is bound. -/
def Binds (bind : Binder (Except ResolutionError)) : Prop :=
  ∀ kind name occurrence r, bind kind name occurrence = .ok r →
    ∃ target place, r = .bound target place

/-! ### Arranged operands -/

theorem optionsCount_of_plain {op : String} {xs : List Expr} (h : PlainOperands op xs) :
    optionsCount xs = 0 := by
  rw [optionsCount, List.countP_eq_zero]
  exact fun x hx => Bool.eq_false_iff.mp (isOptions_of_isPlain (h x hx))

/-- One operand beside plain ones is the only one that can be options. -/
theorem optionsCount_append_le {op : String} {xs : List Expr} (h : PlainOperands op xs)
    (c : Expr) : optionsCount (c :: xs) ≤ 1 ∧ optionsCount (xs ++ [c]) ≤ 1 := by
  have hnone : xs.countP isOptions = 0 := optionsCount_of_plain h
  have hone : [c].countP isOptions ≤ 1 := List.countP_le_length
  constructor
  · rw [optionsCount, ← List.singleton_append, List.countP_append, hnone]
    exact hone
  · rw [optionsCount, List.countP_append, hnone, Nat.zero_add]
    exact hone

/-- The operands of any other clause are plain or settings, and there are settings
at most once, where options are taken or the clause is `offset`. -/
theorem Arranged.ungrouped {op : String} {xs : List Expr} (h : Arranged op xs)
    (hcond : isConditional op = false) :
    (∀ x ∈ xs, x.isPlain = true ∨ IsSettings x) ∧ optionsCount xs ≤ 1 ∧
      (optionsCount xs ≠ 0 → (signature? op).any (·.takesOptions) = true ∨ op = "offset") := by
  cases h with
  | plain hplain =>
      rw [optionsCount_of_plain hplain]
      exact ⟨fun x hx => .inl (hplain x hx), Nat.zero_le 1, fun h => absurd rfl h⟩
  | @trailing s zs c hplain hfound htakes _ _ his =>
      refine ⟨fun x hx => ?_, (optionsCount_append_le hplain c).2, fun _ => .inl ?_⟩
      · rcases List.mem_append.mp hx with hx | hx
        · exact .inl (hplain x hx)
        · exact .inr (List.mem_singleton.mp hx ▸ his)
      · rw [hfound]
        exact htakes
  | @leading zs c hplain hsearch _ his =>
      refine ⟨List.forall_mem_cons.mpr ⟨.inr his, fun x hx => .inl (hplain x hx)⟩,
        (optionsCount_append_le hplain c).1, fun _ => .inl ?_⟩
      obtain ⟨s, hs, hboth⟩ := (Option.any_eq_true _ _).mp hsearch
      rw [hs]
      exact (Bool.and_eq_true_iff.mp hboth).2
  | offset hop hplain =>
      exact ⟨List.forall_mem_cons.mpr ⟨.inr isSettings_noOptions, fun x hx => .inl (hplain x hx)⟩,
        (optionsCount_append_le hplain noOptions).1, fun _ => .inr hop⟩
  | cases h => cases hcond.symm.trans h
  | casesDefault h => cases hcond.symm.trans h

/-! ### Operands -/

/-- There are no names in settings. -/
theorem IsSettings.checked {c : Expr} (h : IsSettings c) : Checked c := by
  cases c with
  | options es o =>
      refine (checked_options es o).mpr fun e he => ?_
      have hliteral := h e he
      rcases e with ⟨k, e⟩
      cases e with
      | literal v p => exact checked_literal v p
      | _ => cases hliteral
  | _ => cases h

/-- The tree, wherever it is resolved, is checked and plain. -/
def Resolvable (bind : Binder (Except ResolutionError)) (e : Expr) : Prop :=
  ∀ expected r, resolve bind expected e = .ok r → Checked r ∧ r.isPlain = true

/-- The node is resolvable, or what is directly below it is. -/
def Ready (bind : Binder (Except ResolutionError)) : Expr → Prop
  | .options es _ => ∀ e ∈ es, e.2.isPlain = true → Resolvable bind e.2
  | .pairs ps _ => ∀ p ∈ ps, p.1.isPlain = true ∧ p.2.isPlain = true →
      Resolvable bind p.1 ∧ Resolvable bind p.2
  | e => Resolvable bind e

variable {bind : Binder (Except ResolutionError)}

theorem Ready.resolvable {e : Expr} (h : Ready bind e) (hplain : e.isPlain = true) :
    Resolvable bind e := by
  cases e with
  | options es o => cases hplain
  | pairs ps o => cases hplain
  | _ => exact h

/-- Resolved operands are checked, and options stay where they are. -/
theorem checked_of_operandsResolve {s : Signature} {op : String} (hs : signature? op = some s)
    {expected : ValueType} {position : Nat} {xs ys : List Expr}
    (h : OperandsResolve bind s expected position xs ys)
    (hxs : ∀ x ∈ xs, IsSettings x ∨ x.isPlain = true ∧ Resolvable bind x) :
    OperandsChecked op position ys ∧ ys.map isOptions = xs.map isOptions := by
  induction h with
  | nil => exact ⟨operandsChecked_nil op _, rfl⟩
  | @options position x xs ys his hrest ih =>
      obtain ⟨hx, hbelow⟩ := List.forall_mem_cons.mp hxs
      obtain ⟨hchecked, hkinds⟩ := ih hbelow
      have hsettings : IsSettings x := by
        rcases hx with hx | ⟨hplain, -⟩
        · exact hx
        · cases (isOptions_of_isPlain hplain).symm.trans his
      refine ⟨(operandsChecked_options his).mpr ⟨hsettings.checked, hchecked⟩, ?_⟩
      rw [List.map_cons, List.map_cons, hkinds]
  | @declared position type x y xs ys hvalue hdeclares hfirst hrest ih =>
      obtain ⟨hx, hbelow⟩ := List.forall_mem_cons.mp hxs
      obtain ⟨hchecked, hkinds⟩ := ih hbelow
      have hresolvable : Resolvable bind x := by
        rcases hx with hx | ⟨-, hx⟩
        · cases hvalue.symm.trans hx.isOptions
        · exact hx
      obtain ⟨hy, hplain⟩ := hresolvable _ y hfirst
      have hvalue' := isOptions_of_isPlain hplain
      refine ⟨(operandsChecked_value hvalue').mpr ⟨fun _ => hy, hchecked⟩, ?_⟩
      rw [List.map_cons, List.map_cons, hkinds, hvalue, hvalue']
  | @spare position x xs ys hvalue hundeclared hrest ih =>
      obtain ⟨-, hbelow⟩ := List.forall_mem_cons.mp hxs
      obtain ⟨hchecked, hkinds⟩ := ih hbelow
      have hspare : isSpare op position = true := by
        rw [isSpare, hs, Option.any_some, hundeclared]
        rfl
      refine ⟨(operandsChecked_value hvalue).mpr ⟨fun h => ?_, hchecked⟩, ?_⟩
      · cases h.symm.trans hspare
      · rw [List.map_cons, List.map_cons, hkinds]

/-- Resolved cases are checked. -/
theorem checked_of_resolveCases {expected : ValueType} {ps qs : List (Expr × Expr)}
    (h : resolveCases bind expected ps = .ok qs)
    (hps : ∀ p ∈ ps, Resolvable bind p.1 ∧ Resolvable bind p.2) :
    (∀ q ∈ qs, Checked q.1 ∧ Checked q.2) ∧ (ps ≠ [] → qs ≠ []) := by
  have hall := resolveCases_eq_ok_iff.mp h
  constructor
  · intro q hq
    obtain ⟨p, hp, htest, hvalue⟩ := exists_mem_of_forall₂ hall.flip hq
    obtain ⟨hresolvable, hresolvable'⟩ := hps p hp
    exact ⟨(hresolvable _ _ htest).1, (hresolvable' _ _ hvalue).1⟩
  · intro hany hnil
    exact hany (List.length_eq_zero_iff.mp (hall.length_eq.trans (hnil ▸ rfl)))

/-- A resolved default is checked, and there is still one. -/
theorem checked_of_resolveDefault {expected : ValueType} {default : Expr}
    {fs : List (String × Expr)}
    (h : resolveDefault bind expected [("default", default)] = .ok fs)
    (hdefault : Resolvable bind default) :
    ∃ default', fs = [("default", default')] ∧ Checked default' := by
  obtain ⟨default', rfl, hresolved⟩ := (resolveDefault_eq_ok_iff.mp h).singleton
  exact ⟨default', rfl, (hdefault _ _ hresolved).1⟩

/-! ### Clauses -/

/-- A number of operands without fault is one that the signature admits. -/
theorem admits_of_arityFault? {s : Signature} {xs : List Expr}
    (hcond : isConditional s.name = false) (h : arityFault? s xs = none)
    (hone : optionsCount xs ≤ 1)
    (hoptions : optionsCount xs ≠ 0 → s.takesOptions = true ∨ s.name = "offset") :
    s.Admits xs := by
  simp only [arityFault?] at h
  by_cases hvariadic : s.variadic = true
  · rw [if_pos hvariadic] at h
    split at h
    · cases h
    · exact .variadic hcond hvariadic (by omega)
  · rw [if_neg hvariadic] at h
    by_cases hcount : (decide (positionalCount xs < s.parameters.length) ||
        decide ((if s.takesOptions = true then s.parameters.length + 1 else s.parameters.length) <
          positionalCount xs)) = true
    · rw [if_pos hcount] at h
      cases h
    · rw [Bool.or_eq_true, decide_eq_true_iff, decide_eq_true_iff] at hcount
      refine .fixed hcond (Bool.eq_false_iff.mpr hvariadic) ?_ hone hoptions
      by_cases htakes : s.takesOptions = true
      · rw [if_pos htakes] at hcount
        have hcases : positionalCount xs = s.parameters.length ∨
            positionalCount xs = s.parameters.length + 1 := by
          omega
        exact hcases.imp_right fun hmore => ⟨htakes, hmore⟩
      · rw [if_neg htakes] at hcount
        exact .inl (by omega)

/-- Grouped cases that are resolved are checked. -/
theorem checked_of_grouped {s : Signature} {op : String} {xs ys : List Expr}
    {expected : ValueType} {o : Option Span} (hs : signature? op = some s)
    (hlayout : Arranged op xs) (hcond : isConditional op = true) (hxs : ∀ x ∈ xs, Ready bind x)
    (h : ClauseResolves bind s expected op xs ys) : Checked (.clause op ys o) := by
  have hname : s.name = op := (mem_catalog_of_signature? hs).2
  rcases hlayout.grouped hcond with ⟨ps, place, rfl, hplain⟩ |
    ⟨ps, place, default, spot, rfl, hplain, hdefault⟩
  · have hpairs : Ready bind (.pairs ps place) := hxs _ List.mem_cons_self
    cases h with
    | cases _ hany hfirst =>
        obtain ⟨hchecked, hstill⟩ :=
          checked_of_resolveCases hfirst fun p hp => hpairs p hp (hplain p hp)
        rw [checked_clause, operandsChecked_value rfl, checked_pairs]
        exact ⟨⟨s, hs, .cases (hname ▸ hcond) (hstill hany)⟩, fun _ => hchecked,
          operandsChecked_nil op _⟩
    | flat hflat =>
        rw [hcond] at hflat
        cases hflat
  · have hpairs : Ready bind (.pairs ps place) := hxs _ List.mem_cons_self
    have hoptions : Ready bind (.options [("default", default)] spot) :=
      hxs _ (List.mem_cons_of_mem _ List.mem_cons_self)
    cases h with
    | casesDefault _ hany hfirst hsecond =>
        obtain ⟨hchecked, hstill⟩ :=
          checked_of_resolveCases hfirst fun p hp => hpairs p hp (hplain p hp)
        obtain ⟨default', rfl, hchecked'⟩ :=
          checked_of_resolveDefault hsecond (hoptions _ List.mem_cons_self hdefault)
        rw [checked_clause, operandsChecked_value rfl, checked_pairs,
          operandsChecked_options rfl, checked_options]
        exact ⟨⟨s, hs, .casesDefault (hname ▸ hcond) (hstill hany)⟩, fun _ => hchecked,
          List.forall_mem_singleton.mpr hchecked', operandsChecked_nil op _⟩
    | flat hflat =>
        rw [hcond] at hflat
        cases hflat

/-- Operands that are resolved one by one are checked. -/
theorem checked_of_ungrouped {s : Signature} {op : String} {xs ys : List Expr}
    {expected : ValueType} {o : Option Span} (hs : signature? op = some s)
    (hlayout : Arranged op xs) (hcond : isConditional op = false)
    (hxs : ∀ x ∈ xs, Ready bind x) (hcount : arityFault? s xs = none)
    (h : OperandsResolve bind s expected 0 xs ys) : Checked (.clause op ys o) := by
  have hname : s.name = op := (mem_catalog_of_signature? hs).2
  obtain ⟨hkinds, hone, hoptions⟩ := hlayout.ungrouped hcond
  have hready : ∀ x ∈ xs, IsSettings x ∨ x.isPlain = true ∧ Resolvable bind x := by
    intro x hx
    rcases hkinds x hx with hplain | hsettings
    · exact .inr ⟨hplain, (hxs x hx).resolvable hplain⟩
    · exact .inl hsettings
  obtain ⟨hchecked, hsame⟩ := checked_of_operandsResolve hs h hready
  obtain ⟨hpositional, hsettings⟩ := counts_of_map_isOptions hsame
  have hfault : arityFault? s ys = none := by
    rw [arityFault?, hpositional]
    exact hcount
  rw [hs, Option.any_some, ← hname] at hoptions
  have hadmits : s.Admits ys :=
    admits_of_arityFault? (hname ▸ hcond) hfault (hsettings ▸ hone) (hsettings ▸ hoptions)
  exact (checked_clause op ys o).mpr ⟨⟨s, hs, hadmits⟩, hchecked⟩

/-- **A resolved clause** is checked if its operands are ready. -/
theorem checked_of_clauseResolves {s : Signature} {op : String} {xs ys : List Expr}
    {expected : ValueType} {o : Option Span} (hs : signature? op = some s)
    (hlayout : Arranged op xs) (hxs : ∀ x ∈ xs, Ready bind x)
    (h : ClauseResolves bind s expected op xs ys) : Checked (.clause op ys o) := by
  by_cases hcond : isConditional op = true
  · exact checked_of_grouped hs hlayout hcond hxs h
  · cases h with
    | cases h => exact absurd h hcond
    | casesDefault h => exact absurd h hcond
    | flat _ hcount hoperands =>
        exact checked_of_ungrouped hs hlayout (Bool.eq_false_iff.mpr hcond) hxs hcount hoperands

/-- **What is resolved is checked.**  Every arranged node is ready. -/
theorem ready_of_arranged (hbind : Binds bind) {e : Expr} (h : EveryClause Arranged e) :
    Ready bind e := by
  induction e with
  | literal v o =>
      intro expected r hr
      obtain ⟨-, rfl⟩ := resolve_literal_eq_ok_iff.mp hr
      exact ⟨checked_literal v o, rfl⟩
  | reference k n o =>
      intro expected r hr
      obtain ⟨target, htarget, rfl⟩ := resolve_reference_eq_ok_iff.mp hr
      obtain ⟨t, place, rfl⟩ := hbind _ _ _ _ htarget
      cases place <;> exact ⟨checked_bound t _, rfl⟩
  | bound t o =>
      intro expected r hr
      cases hr
      exact ⟨checked_bound t o, rfl⟩
  | clause op xs o ih =>
      obtain ⟨hlayout, hbelow⟩ := (everyClause_clause op xs o).mp h
      intro expected r hr
      obtain ⟨s, ys, hs, -, hoperands, rfl⟩ := resolve_clause_eq_ok_iff.mp hr
      exact ⟨checked_of_clauseResolves hs hlayout (fun x hx => ih x hx (hbelow x hx)) hoperands,
        rfl⟩
  | options es o ih =>
      have hbelow := (everyClause_options es o).mp h
      exact fun e he hplain => (ih e he (hbelow e he)).resolvable hplain
  | pairs ps o ih =>
      have hbelow := (everyClause_pairs ps o).mp h
      exact fun p hp hplain => ⟨((ih p hp).1 (hbelow p hp).1).resolvable hplain.1,
        ((ih p hp).2 (hbelow p hp).2).resolvable hplain.2⟩

end QueryFormula
