import QueryFormula.Proofs.Resolution.OwnName
import QueryFormula.Proofs.Resolution.Typing

/-!
# What a schema adds

A formula is compiled without a schema, its names unbound, or with one.  Nothing that
resolution checks depends on what a name is bound to, and both runs check in one order.
So they part in two ways only (`AddsAnswers`): the run with the schema may refuse a name,
and where it does not, each name that was handed over has a meaning, and the result is
that of the other run with the meanings filled in.

`Expr.fillIn?` goes to the names that resolution hands to a binder, and to no others; it
fails if one of them means nothing.  `compile_withSchema` says the same of compilation,
where truth values and saved filters are compared with `true` once they are known.
-/

namespace QueryFormula

open QueryFormula.Expr

/-! ### Names and their meanings -/

namespace Expr

mutual

/-- The tree with the names that were handed to a binder replaced by their meanings, if each
of them has one. -/
def fillIn? (meaning : NameKind → String → Option BoundRef) : Expr → Option Expr
  | reference kind name o => (meaning kind name).map (bound · o)
  | clause op xs o =>
    match isConditional op, xs with
    | true, [pairs ps place] => do
      let ps ← fillInCases? meaning ps
      pure (clause op [pairs ps place] o)
    | true, [pairs ps place, options es spot] => do
      let ps ← fillInCases? meaning ps
      let es ← fillInDefault? meaning es
      pure (clause op [pairs ps place, options es spot] o)
    | _, xs => do
      let xs ← fillInOperands? meaning op 0 xs
      pure (clause op xs o)
  | e => some e

/-- The operands of a clause from a position on; options and spare operands are not
handed on. -/
def fillInOperands? (meaning : NameKind → String → Option BoundRef) (op : String)
    (position : Nat) : List Expr → Option (List Expr)
  | [] => some []
  | x :: xs =>
    if x.isOptions then do
      let xs ← fillInOperands? meaning op position xs
      pure (x :: xs)
    else do
      let x ← if isSpare op position then some x else fillIn? meaning x
      let xs ← fillInOperands? meaning op (position + 1) xs
      pure (x :: xs)

/-- Tests and values. -/
def fillInCases? (meaning : NameKind → String → Option BoundRef) :
    List (Expr × Expr) → Option (List (Expr × Expr))
  | [] => some []
  | (test, value) :: ps => do
    let test ← fillIn? meaning test
    let value ← fillIn? meaning value
    let ps ← fillInCases? meaning ps
    pure ((test, value) :: ps)

/-- The first default of a conditional. -/
def fillInDefault? (meaning : NameKind → String → Option BoundRef) :
    List (String × Expr) → Option (List (String × Expr))
  | [] => some []
  | (key, value) :: es =>
    if key = "default" then do
      let value ← fillIn? meaning value
      pure ((key, value) :: es)
    else do
      let es ← fillInDefault? meaning es
      pure ((key, value) :: es)

end

section Clauses

variable {meaning : NameKind → String → Option BoundRef} {op : String} {o : Option Span}

theorem fillIn?_cases (hcond : isConditional op = true) {ps qs : List (Expr × Expr)}
    (h : fillInCases? meaning ps = some qs) (place : Option Span) :
    fillIn? meaning (clause op [pairs ps place] o) = some (clause op [pairs qs place] o) := by
  rw [fillIn?]
  · rw [h]
    rfl
  · exact hcond

theorem fillIn?_casesDefault (hcond : isConditional op = true) {ps qs : List (Expr × Expr)}
    (h : fillInCases? meaning ps = some qs) {es fs : List (String × Expr)}
    (h' : fillInDefault? meaning es = some fs) (place spot : Option Span) :
    fillIn? meaning (clause op [pairs ps place, options es spot] o) =
      some (clause op [pairs qs place, options fs spot] o) := by
  rw [fillIn?]
  · rw [h, h']
    rfl
  · exact hcond

theorem fillIn?_operands (hcond : isConditional op = false) {xs ys : List Expr}
    (h : fillInOperands? meaning op 0 xs = some ys) :
    fillIn? meaning (clause op xs o) = some (clause op ys o) := by
  rw [fillIn?]
  · rw [h]
    rfl
  · exact fun _ _ htrue => Bool.noConfusion (htrue.symm.trans hcond)
  · exact fun _ _ _ _ htrue => Bool.noConfusion (htrue.symm.trans hcond)

end Clauses

end Expr

section Contexts

variable {σ : Type}

/-- The same formula, to be compiled without a schema. -/
def Context.schemaless (context : Context σ) : Context σ :=
  { context with schema := none }

/-- The same formula, to be compiled with this schema. -/
def Context.withSchema (context : Context σ) (schema : σ) : Context σ :=
  { context with schema := some schema }

variable [Lookup σ] {context : Context σ} {schema : σ} {kind : NameKind} {name : String}
  {span : Option Span}

/-- What a name means in a schema, as a reference of some kind. -/
def Context.meaning (context : Context σ) (schema : σ) (kind : NameKind) (name : String) :
    Option BoundRef :=
  (context.target schema kind name none).toOption

theorem Context.bind_withSchema (context : Context σ) (schema : σ) (kind : NameKind)
    (name : String) (occurrence : Occurrence) :
    (context.withSchema schema).bind kind name occurrence =
      (context.target schema kind name occurrence.origin).map (.bound · none) := by
  have hschema : (context.withSchema schema).schema = some schema := rfl
  have htarget : (context.withSchema schema).target schema kind name occurrence.origin =
    context.target schema kind name occurrence.origin := rfl
  simp only [bind, hschema, htarget]
  cases context.target schema kind name occurrence.origin <;> rfl

/-- Only a name that means nothing is refused. -/
theorem Context.isUnknownName_of_target {e : ResolutionError}
    (h : context.target schema kind name span = .error e) : e.isUnknownName = true := by
  unfold Context.target at h
  cases kind <;> dsimp only at h <;> repeat' split at h
  all_goals cases h
  all_goals rfl

/-- What a name means does not depend on its place. -/
theorem Context.meaning_of_target {target : BoundRef}
    (h : context.target schema kind name span = .ok target) :
    context.meaning schema kind name = some target := by
  have hplace : context.target schema kind name none = .ok target := by
    unfold Context.target at h ⊢
    cases kind <;> dsimp only at h ⊢ <;> repeat' split at h
    all_goals cases h
    all_goals simp [*]
  rw [Context.meaning, hplace]
  rfl

end Contexts

/-! ### Two runs -/

/-- The second run refuses a name, or fails as the first one does, or has the result of the
first one with answers filled in. -/
inductive AddsAnswers {α : Type} (fill : α → Option α) :
    (free bound : Except ResolutionError α) → Prop
  | refused {free : Except ResolutionError α} {e : ResolutionError} (h : e.isUnknownName = true) :
      AddsAnswers fill free (.error e)
  | failed (e : ResolutionError) : AddsAnswers fill (.error e) (.error e)
  | filled {a b : α} (h : fill a = some b) : AddsAnswers fill (.ok a) (.ok b)

namespace AddsAnswers

variable {α β : Type} {fill : α → Option α} {fill' : β → Option β}

/-- One step after another. -/
theorem bind {free bound : Except ResolutionError α} {next next' : α → Except ResolutionError β}
    (h : AddsAnswers fill free bound)
    (hnext : ∀ a b, free = .ok a → fill a = some b → AddsAnswers fill' (next a) (next' b)) :
    AddsAnswers fill' (free >>= next) (bound >>= next') := by
  cases h with
  | refused hname => exact .refused hname
  | failed e => exact .failed e
  | filled hfill => exact hnext _ _ rfl hfill

/-- A step that wraps up the result of another. -/
theorem map {free bound : Except ResolutionError α} {wrap wrap' : α → β}
    (h : AddsAnswers fill free bound)
    (hwrap : ∀ a b, free = .ok a → fill a = some b → fill' (wrap a) = some (wrap' b)) :
    AddsAnswers fill' (do let a ← free; pure (wrap a)) (do let b ← bound; pure (wrap' b)) :=
  h.bind fun a b ha hb => .filled (hwrap a b ha hb)

end AddsAnswers

/-! ### Resolution -/

section Resolution

variable {σ : Type} [Lookup σ] {context : Context σ} {schema : σ} {expected : ValueType}

/-- Resolution with a schema adds answers to resolution without one. -/
def ResolvesAlike (context : Context σ) (schema : σ) (e : Expr) : Prop :=
  ∀ expected, AddsAnswers (fillIn? (context.meaning schema))
    (resolve context.schemaless.bind expected e)
    (resolve (context.withSchema schema).bind expected e)

theorem resolvesAlike_reference (kind : NameKind) (name : String) (o : Option Span) :
    ResolvesAlike context schema (.reference kind name o) := by
  intro expected
  have hfree : resolve context.schemaless.bind expected (.reference kind name o) =
      .ok (.reference (NameKind.ofType expected) name o) := by
    cases o <;> rfl
  rw [hfree, resolve_reference, Context.bind_withSchema]
  cases htarget : context.target schema (NameKind.ofType expected) name o with
  | error e => exact .refused (Context.isUnknownName_of_target htarget)
  | ok target =>
      have hfill : fillIn? (context.meaning schema)
          (.reference (NameKind.ofType expected) name o) = some (.bound target o) := by
        rw [fillIn?, Context.meaning_of_target htarget]
        rfl
      have hadopt : (Expr.bound target none).adoptOrigin o = .bound target o := by
        cases o <;> rfl
      rw [← hadopt] at hfill
      exact .filled hfill

/-- Operands one by one; an options object among them is one after resolution as before. -/
theorem addsAnswers_operands {op : String} {s : Signature} (hs : signature? op = some s)
    {xs : List Expr} (hxs : ∀ x ∈ xs, ResolvesAlike context schema x) (position : Nat) :
    AddsAnswers (fillInOperands? (context.meaning schema) op position)
      (resolveOperands context.schemaless.bind s expected position xs)
      (resolveOperands (context.withSchema schema).bind s expected position xs) := by
  induction xs generalizing position with
  | nil => exact .filled rfl
  | cons x xs ih =>
      obtain ⟨hx, hbelow⟩ := List.forall_mem_cons.mp hxs
      rw [resolveOperands, resolveOperands]
      by_cases hoptions : x.isOptions = true
      · rw [if_pos hoptions, if_pos hoptions]
        refine (ih hbelow position).map fun ys zs _ hys => ?_
        rw [fillInOperands?, if_pos hoptions, hys]
        rfl
      · rw [if_neg hoptions, if_neg hoptions]
        cases hdeclared : s.parameter? position with
        | some type =>
            have hspare : ¬isSpare op position = true := by simp [isSpare, hs, hdeclared]
            refine (hx _).bind fun y z hy hfilled =>
              (ih hbelow (position + 1)).map fun ys zs _ hys => ?_
            have hvalue := isOptions_of_resolve context.schemaless.answersNames_bind
              (Bool.eq_false_iff.mpr hoptions) hy
            rw [fillInOperands?, if_neg (Bool.eq_false_iff.mp hvalue), if_neg hspare, hfilled, hys]
            rfl
        | none =>
            have hspare : isSpare op position = true := by simp [isSpare, hs, hdeclared]
            refine (ih hbelow (position + 1)).map fun ys zs _ hys => ?_
            rw [fillInOperands?, if_neg hoptions, if_pos hspare, hys]
            rfl

theorem addsAnswers_cases {ps : List (Expr × Expr)}
    (hps : ∀ p ∈ ps, ResolvesAlike context schema p.1 ∧ ResolvesAlike context schema p.2) :
    AddsAnswers (fillInCases? (context.meaning schema))
      (resolveCases context.schemaless.bind expected ps)
      (resolveCases (context.withSchema schema).bind expected ps) := by
  induction ps with
  | nil => exact .filled rfl
  | cons p ps ih =>
      obtain ⟨⟨htest, hvalue⟩, hbelow⟩ := List.forall_mem_cons.mp hps
      rw [resolveCases, resolveCases]
      refine (htest _).bind fun _ _ _ htest => (hvalue _).bind fun _ _ _ hvalue =>
        (ih hbelow).map fun _ _ _ hrest => ?_
      rw [fillInCases?, htest, hvalue, hrest]
      rfl

theorem addsAnswers_default {es : List (String × Expr)}
    (hes : ∀ e ∈ es, ResolvesAlike context schema e.2) :
    AddsAnswers (fillInDefault? (context.meaning schema))
      (resolveDefault context.schemaless.bind expected es)
      (resolveDefault (context.withSchema schema).bind expected es) := by
  induction es with
  | nil => exact .filled rfl
  | cons e es ih =>
      obtain ⟨hvalue, hbelow⟩ := List.forall_mem_cons.mp hes
      rw [resolveDefault, resolveDefault]
      by_cases hkey : e.1 = "default"
      · rw [if_pos hkey, if_pos hkey]
        refine (hvalue _).map fun _ _ _ hfilled => ?_
        rw [fillInDefault?, if_pos hkey, hfilled]
        rfl
      · rw [if_neg hkey, if_neg hkey]
        refine (ih hbelow).map fun _ _ _ hrest => ?_
        rw [fillInDefault?, if_neg hkey, hrest]
        rfl

theorem addsAnswers_clause {op : String} {xs : List Expr} {o : Option Span}
    (hlayout : Arranged op xs)
    (hxs : ∀ x ∈ xs, ResolvesAlike context schema x ∧
      Within (ResolvesAlike context schema) x) :
    AddsAnswers (fillIn? (context.meaning schema))
      (resolve context.schemaless.bind expected (.clause op xs o))
      (resolve (context.withSchema schema).bind expected (.clause op xs o)) := by
  cases resolving expected op xs with
  | unknown hs =>
      rw [resolve_unknown hs, resolve_unknown hs]
      exact .failed _
  | mismatch hs hkind =>
      rw [resolve_mismatch hs hkind, resolve_mismatch hs hkind]
      exact .failed _
  | grouped hs hkind hcond ps place =>
      have hps := (hxs _ List.mem_cons_self).2
      rw [resolve_grouped hs hkind hcond, resolve_grouped hs hkind hcond]
      split
      · exact .failed _
      · exact (addsAnswers_cases hps).map fun _ _ _ hqs => fillIn?_cases hcond hqs place
  | groupedDefault hs hkind hcond ps place es spot =>
      have hps := (hxs _ List.mem_cons_self).2
      have hes := (hxs _ (List.mem_cons_of_mem _ List.mem_cons_self)).2
      rw [resolve_groupedDefault hs hkind hcond, resolve_groupedDefault hs hkind hcond]
      split
      · exact .failed _
      · exact (addsAnswers_cases hps).bind fun _ _ _ hqs =>
          (addsAnswers_default hes).map fun _ _ _ hfs =>
            fillIn?_casesDefault hcond hqs hfs place spot
  | flat hs hkind hplain =>
      rw [resolve_flat hs hkind hplain, resolve_flat hs hkind hplain]
      split
      · exact .failed _
      · exact (addsAnswers_operands hs (fun x hx => (hxs x hx).1) 0).map fun _ _ _ hys =>
          fillIn?_operands (hlayout.not_conditional hplain) hys

/-- What a layout gives for every tree, it gives within an operand that has the layout. -/
theorem within_of_everyClause {L : String → List Expr → Prop} {P : Expr → Prop} {e : Expr}
    (h : Within (fun x => EveryClause L x → P x) e) (hlayout : EveryClause L e) :
    Within P e := by
  cases e with
  | options es o => exact fun e he => h e he ((everyClause_options es o).mp hlayout e he)
  | pairs ps o =>
      intro p hp
      have hbelow := (everyClause_pairs ps o).mp hlayout p hp
      exact ⟨(h p hp).1 hbelow.1, (h p hp).2 hbelow.2⟩
  | _ => trivial

/-- **Two runs of resolution.** -/
theorem resolvesAlike {e : Expr} (h : EveryClause Arranged e) :
    ResolvesAlike context schema e := by
  revert h
  induction e using inductClauses with
  | literal v o =>
      intro _ expected
      rw [resolve_literal, resolve_literal]
      split
      · exact .filled rfl
      · exact .failed _
  | reference k n o => exact fun _ => resolvesAlike_reference k n o
  | bound t o => exact fun _ _ => .filled rfl
  | options es o _ => exact fun _ _ => .filled rfl
  | pairs ps o _ => exact fun _ _ => .filled rfl
  | clause op xs o ih =>
      intro h expected
      obtain ⟨hlayout, hbelow⟩ := (everyClause_clause op xs o).mp h
      exact addsAnswers_clause hlayout fun x hx =>
        ⟨(ih x hx).1 (hbelow x hx), within_of_everyClause (ih x hx).2 (hbelow x hx)⟩

end Resolution

/-! ### Compilation -/

/-- A condition without bound names stays. -/
theorem BecomesCondition.eq_of_unbound {x y : Expr} (h : BecomesCondition x y)
    (hx : EveryName (fun _ => True) (fun _ => False) x) : y = x := by
  cases h with
  | stays => rfl
  | compared t o => exact ((everyName_bound t o).mp hx).elim

theorem BecomesOperand.eq_of_unbound {x y : Expr} (h : BecomesOperand x y)
    (hx : EveryName (fun _ => True) (fun _ => False) x) : y = x := by
  cases h with
  | condition h => exact h.eq_of_unbound hx
  | tests ps o =>
      have hps := (everyName_pairs ps o).mp hx
      refine congrArg (Expr.pairs · o) (map_eq_self fun p hp => Prod.ext ?_ rfl)
      exact (becomesCondition_conditionTest p.1).eq_of_unbound (hps p hp).1

/-- Comparisons with `true` find nothing to compare where no name is bound. -/
theorem compareConditions_eq_self {e : Expr}
    (h : EveryName (fun _ => True) (fun _ => False) e) : compareConditions e = e := by
  refine bottomUp_eq_self (fun op xs o hxs => ?_) h.everyClause
  obtain ⟨ys, hys, hbecomes⟩ := exists_conditionClause op xs o
  have hsame : List.Forall₂ (fun x y => x = y) xs ys :=
    ((List.forall₂_and_left _ _).mpr ⟨hxs, hbecomes⟩).imp fun _ _ ⟨hx, h⟩ =>
      (h.eq_of_unbound hx).symm
  rw [List.forall₂_eq_eq_eq] at hsame
  rw [hys, hsame]

section Contexts

variable {σ : Type} [Lookup σ]

/-- Without a schema nothing is bound. -/
theorem compareConditions_of_resolve {context : Context σ} {source : String} {tree r : Expr}
    (hread : readTree source = .ok tree) (h : context.schemaless.resolve tree = .ok r) :
    compareConditions r = r := by
  refine compareConditions_eq_self (everyName_resolve (P := fun _ => True) ?_ h
    (everyName_of_readTree hread).normalForm)
  rintro kind n occurrence r - hr
  cases hr
  exact (everyName_reference kind n none).mpr trivial

/-- **A schema only adds answers, and refusals of names.**  A formula that is compiled with
a schema is refused for a name that means nothing there; or it is refused as it is without a
schema; or it compiles both ways, every name that was handed over has a meaning, and the
clause tree is the one without a schema with these meanings filled in, compared with `true`
where conditions stand alone. -/
theorem compile_withSchema (context : Context σ) (schema : σ) (source : String) :
    (∃ e, compile (context.withSchema schema) source = .error (.resolution e) ∧
      e.isUnknownName = true) ∨
    (∃ e, compile context.schemaless source = .error e ∧
      compile (context.withSchema schema) source = .error e) ∨
    ∃ free bound, compile context.schemaless source = .ok free ∧
      free.fillIn? (context.meaning schema) = some bound ∧
      compile (context.withSchema schema) source = .ok (compareConditions bound) := by
  cases hread : readTree source with
  | error e =>
      refine .inr (.inl ⟨e, ?_, ?_⟩)
      · rw [compile, hread]
        rfl
      · rw [compile, hread]
        rfl
  | ok tree =>
      have harranged := (arranged_normalForm (raw_of_readTree hread)).1
      have halike : AddsAnswers (fillIn? (context.meaning schema))
          (context.schemaless.resolve tree) ((context.withSchema schema).resolve tree) :=
        resolvesAlike harranged context.mode.expected
      rw [compile_of_readTree hread, compile_of_readTree hread]
      generalize hfree : context.schemaless.resolve tree = free at halike
      generalize (context.withSchema schema).resolve tree = bound at halike
      cases halike with
      | refused hname => exact .inl ⟨_, rfl, hname⟩
      | failed e => exact .inr (.inl ⟨_, rfl, rfl⟩)
      | @filled free bound hfill =>
          have hself := compareConditions_of_resolve hread hfree
          exact .inr (.inr ⟨free, bound, congrArg Except.ok hself, hfill, rfl⟩)

end Contexts

end QueryFormula
