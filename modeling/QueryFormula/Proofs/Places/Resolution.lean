import QueryFormula.Compile
import QueryFormula.Proofs.Places.Placed
import QueryFormula.Proofs.Places.Relocation
import QueryFormula.Proofs.Resolution.Success

/-!
# Where resolution finds errors

Every error of resolution lies where a node of the tree does, and an error about a name where
the name does (`yields_resolve`).  Moving the places of a tree moves its errors along, and
changes nothing else (`resolve_relocate`).
-/

namespace QueryFormula

open QueryFormula.Expr

namespace ResolutionError

/-- The name that means nothing, if the error is about one. -/
def unknownName? : ResolutionError → Option String
  | unknownField name _ | unknownMetric name _ | noAggregation name _
  | unknownSegment name _ => some name
  | _ => none

/-- The same error at another place. -/
def setSpan (span : Option Span) : ResolutionError → ResolutionError
  | unknownField name _ => unknownField name span
  | unknownMetric name _ => unknownMetric name span
  | noAggregation name _ => noAggregation name span
  | unknownSegment name _ => unknownSegment name span
  | unknownFunction name _ => unknownFunction name span
  | wrongArity function arity _ => wrongArity function arity span
  | typeMismatch expected found _ => typeMismatch expected found span

@[simp] theorem message_setSpan (span : Option Span) (e : ResolutionError) :
    (e.setSpan span).message = e.message := by
  cases e <;> rfl

@[simp] theorem span_setSpan (span : Option Span) (e : ResolutionError) :
    (e.setSpan span).span = span := by
  cases e <;> rfl

theorem isSome_unknownName? (e : ResolutionError) : e.unknownName?.isSome = e.isUnknownName := by
  cases e <;> rfl

/-- The error has its place among the tokens, and one about a name that of the name. -/
def Placed (tokens : List Token) (e : ResolutionError) : Prop :=
  ∃ span, e.span = some span ∧ IsRange tokens span ∧
    ∀ name, e.unknownName? = some name → IsName tokens name span

/-- The error in a tree that was read from other places. -/
def relocate (r : Relocation) (e : ResolutionError) : ResolutionError :=
  e.setSpan (e.span.map r.span)

end ResolutionError

/-! ### Errors among the tokens -/

section Yields

variable {tokens : List Token} {bind : Binder (Except ResolutionError)}

/-- The result has its places among the tokens, and so has an error. -/
abbrev YieldsPlaced (tokens : List Token) (result : Except ResolutionError Expr) : Prop :=
  Yields (Expr.Placed tokens) (ResolutionError.Placed tokens) result

/-- An error that is about no name lies where its node does. -/
theorem placed_error {e : ResolutionError} {span : Span} (hspan : e.span = some span)
    (place : IsRange tokens span) (hname : e.unknownName? = none) : e.Placed tokens :=
  ⟨span, hspan, place, fun name h => by rw [hname] at h; cases h⟩

/-- The binder refuses a name where the name is. -/
def BindsPlaced (tokens : List Token) (bind : Binder (Except ResolutionError)) : Prop :=
  ∀ kind own name span, IsName tokens name span → IsRange tokens span →
    Yields (fun target => Expr.Placed tokens (target.adoptOrigin (some span)))
      (ResolutionError.Placed tokens) (bind kind name ⟨own, some span⟩)

theorem yields_operands {s : Signature} {expected : ValueType} {xs : List Expr}
    (hxs : ∀ x ∈ xs, Expr.Placed tokens x)
    (ih : ∀ x ∈ xs, ∀ type, YieldsPlaced tokens (resolve bind type x)) (position : Nat) :
    Yields (fun ys => ∀ y ∈ ys, Expr.Placed tokens y) (ResolutionError.Placed tokens)
      (resolveOperands bind s expected position xs) := by
  induction xs generalizing position with
  | nil => exact hxs
  | cons x xs ihxs =>
      obtain ⟨hx, hbelow⟩ := List.forall_mem_cons.mp hxs
      obtain ⟨ihx, ihbelow⟩ := List.forall_mem_cons.mp ih
      have hrest := ihxs hbelow ihbelow
      rw [resolveOperands]
      split
      · exact (hrest position).map fun ys hys => List.forall_mem_cons.mpr ⟨hx, hys⟩
      · split
        · exact (ihx _).bind fun y hy => (hrest _).map fun ys hys =>
            List.forall_mem_cons.mpr ⟨hy, hys⟩
        · exact (hrest _).map fun ys hys => List.forall_mem_cons.mpr ⟨hx, hys⟩

theorem yields_cases {expected : ValueType} {ps : List (Expr × Expr)}
    (ih : ∀ p ∈ ps, ∀ type, YieldsPlaced tokens (resolve bind type p.1) ∧
      YieldsPlaced tokens (resolve bind type p.2)) :
    Yields (fun qs => ∀ q ∈ qs, Expr.Placed tokens q.1 ∧ Expr.Placed tokens q.2)
      (ResolutionError.Placed tokens) (resolveCases bind expected ps) := by
  induction ps with
  | nil => exact fun q hq => absurd hq List.not_mem_nil
  | cons p ps ihps =>
      obtain ⟨ihp, ihbelow⟩ := List.forall_mem_cons.mp ih
      rw [resolveCases]
      exact (ihp _).1.bind fun test htest => (ihp _).2.bind fun value hvalue =>
        (ihps ihbelow).map fun qs hqs => List.forall_mem_cons.mpr ⟨⟨htest, hvalue⟩, hqs⟩

/-- Of the entries beside a default none is resolved. -/
theorem yields_default {expected : ValueType} {es : List (String × Expr)}
    (hdefault : ∀ e ∈ es, e.1 = "default" → Expr.Placed tokens e.2)
    (hsettings : ∀ e ∈ es, e.1 ≠ "default" → ∃ b, e.2 = ofBool b)
    (ih : ∀ e ∈ es, e.1 = "default" → ∀ type, YieldsPlaced tokens (resolve bind type e.2)) :
    Yields (fun fs => (∀ f ∈ fs, f.1 = "default" → Expr.Placed tokens f.2) ∧
        ∀ f ∈ fs, f.1 ≠ "default" → ∃ b, f.2 = ofBool b)
      (ResolutionError.Placed tokens) (resolveDefault bind expected es) := by
  induction es with
  | nil => exact ⟨hdefault, hsettings⟩
  | cons e es ihes =>
      obtain ⟨hfirst, hbelow⟩ := List.forall_mem_cons.mp hdefault
      obtain ⟨hsetting, hsettings⟩ := List.forall_mem_cons.mp hsettings
      obtain ⟨ihe, ihbelow⟩ := List.forall_mem_cons.mp ih
      rw [resolveDefault]
      split
      · rename_i hkey
        exact (ihe hkey _).map fun value hvalue =>
          ⟨List.forall_mem_cons.mpr ⟨fun _ => hvalue, hbelow⟩,
            List.forall_mem_cons.mpr ⟨fun hne => absurd hkey hne, hsettings⟩⟩
      · rename_i hkey
        exact (ihes hbelow hsettings ihbelow).map fun fs hfs =>
          ⟨List.forall_mem_cons.mpr ⟨fun h => absurd h hkey, hfs.1⟩,
            List.forall_mem_cons.mpr ⟨hsetting, hfs.2⟩⟩

/-- **Errors lie among the tokens** where the tree does. -/
theorem yields_resolve (hbind : BindsPlaced tokens bind) {e : Expr} (h : e.Placed tokens) :
    ∀ expected, YieldsPlaced tokens (resolve bind expected e) := by
  induction e using inductClauses with
  | literal v o =>
      intro expected
      cases h with
      | literal reflexive place =>
          rw [resolve_literal]
          split
          · exact .literal reflexive place
          · exact placed_error rfl place rfl
  | reference k n o =>
      intro expected
      cases h with
      | name writes place =>
          rw [resolve_reference]
          exact (hbind _ k n _ writes place).map fun _ htarget => htarget
  | bound t o => exact fun _ => h
  | options es o _ => exact fun _ => h
  | pairs ps o _ => exact fun _ => h
  | clause op xs o ih =>
      intro expected
      cases h with
      | @clause _ _ span place hxs =>
          have hcases : ∀ {ps spot}, Expr.pairs ps spot ∈ xs → ∀ p ∈ ps, ∀ type,
              YieldsPlaced tokens (resolve bind type p.1) ∧
                YieldsPlaced tokens (resolve bind type p.2) := by
            intro ps spot hpairs p hp type
            obtain ⟨ihtest, ihvalue⟩ := (ih _ hpairs).2 p hp
            cases hxs _ hpairs with
            | pairs tests values => exact ⟨ihtest (tests p hp) type, ihvalue (values p hp) type⟩
          cases resolving expected op xs with
          | unknown hs =>
              rw [resolve_unknown hs]
              exact placed_error rfl place rfl
          | mismatch hs hkind =>
              rw [resolve_mismatch hs hkind]
              exact placed_error rfl place rfl
          | grouped hs hkind hcond ps spot =>
              rw [resolve_grouped hs hkind hcond]
              split
              · exact placed_error rfl place rfl
              · exact (yields_cases (hcases List.mem_cons_self)).map fun qs hqs =>
                  .clause place (List.forall_mem_singleton.mpr
                    (.pairs (fun q hq => (hqs q hq).1) fun q hq => (hqs q hq).2))
          | groupedDefault hs hkind hcond ps spot es spot' =>
              have hentries : Expr.options es spot' ∈ [Expr.pairs ps spot, .options es spot'] :=
                List.mem_cons_of_mem _ List.mem_cons_self
              rw [resolve_groupedDefault hs hkind hcond]
              split
              · exact placed_error rfl place rfl
              · cases hxs _ hentries with
                | options default settings =>
                    have hbelow : ∀ e ∈ es, e.1 = "default" → ∀ type,
                        YieldsPlaced tokens (resolve bind type e.2) :=
                      fun e he hkey => (ih _ hentries).2 e he (default e he hkey)
                    exact (yields_cases (hcases List.mem_cons_self)).bind fun qs hqs =>
                      (yields_default default settings hbelow).map fun fs hfs => .clause place
                        (List.forall_mem_cons.mpr
                          ⟨.pairs (fun q hq => (hqs q hq).1) fun q hq => (hqs q hq).2,
                            List.forall_mem_singleton.mpr (.options hfs.1 hfs.2)⟩)
          | flat hs hkind hplain =>
              rw [resolve_flat hs hkind hplain]
              split
              · exact placed_error rfl place rfl
              · exact (yields_operands hxs (fun x hx => (ih x hx).1 (hxs x hx)) 0).map
                  fun ys hys => .clause place hys

end Yields

/-- Only a name that means nothing is refused, where it stands. -/
theorem Context.placed_of_target {σ : Type} [Lookup σ] {context : Context σ} {schema : σ}
    {kind : NameKind} {name : String} {span : Option Span} {e : ResolutionError}
    (h : context.target schema kind name span = .error e) :
    e.span = span ∧ e.unknownName? = some name := by
  unfold Context.target at h
  cases kind <;> dsimp only at h <;> repeat' split at h
  all_goals cases h
  all_goals exact ⟨rfl, rfl⟩

/-- What a name means does not depend on where it stands. -/
theorem Context.target_setSpan {σ : Type} [Lookup σ] (context : Context σ) (schema : σ) (kind : NameKind)
    (name : String) (o p : Option Span) :
    context.target schema kind name p =
      (context.target schema kind name o).mapError (ResolutionError.setSpan p) := by
  cases kind <;> simp only [Context.target] <;> repeat' split
  all_goals rfl

theorem bindsPlaced_bind {σ : Type} [Lookup σ] (context : Context σ) (tokens : List Token) :
    BindsPlaced tokens context.bind := by
  intro kind own name span writes place
  unfold Context.bind
  split
  · exact .name writes place
  · rename_i schema _
    cases htarget : context.target schema kind name (some span) with
    | ok target => exact .bound place
    | error e =>
        obtain ⟨hspan, hname⟩ := Context.placed_of_target htarget
        refine ⟨span, hspan, place, fun n hn => ?_⟩
        cases hname.symm.trans hn
        exact writes

/-! ### Errors in a tree at other places -/

/-- The result of a computation on what was read from other places. -/
def Relocation.outcome {α : Type} (r : Relocation) (act : α → α) :
    Except ResolutionError α → Except ResolutionError α
  | .ok a => .ok (act a)
  | .error e => .error (e.relocate r)

section Relocate

variable (r : Relocation) {α β : Type} {bind : Binder (Except ResolutionError)}

theorem Relocation.outcome_bind {act : α → α} {act' : β → β}
    {first first' : Except ResolutionError α} {next next' : α → Except ResolutionError β}
    (hfirst : first' = r.outcome act first)
    (hnext : ∀ a, next' (act a) = r.outcome act' (next a)) :
    (first' >>= next') = r.outcome act' (first >>= next) := by
  subst hfirst
  cases first with
  | error e => rfl
  | ok a => exact hnext a

/-- The binder looks at no place. -/
def BindsAlike (bind : Binder (Except ResolutionError)) : Prop :=
  ∀ kind own name o, bind kind name ⟨own, o.map r.span⟩ =
    r.outcome (Expr.relocate r) (bind kind name ⟨own, o⟩)

theorem isGrouped_relocate (xs : List Expr) :
    isGrouped (xs.map (Expr.relocate r)) = isGrouped xs := by
  match xs with
  | [] => rfl
  | [x] => cases x <;> simp [isGrouped]
  | [x, y] => cases x <;> cases y <;> simp [isGrouped]
  | _ :: _ :: _ :: _ => simp [isGrouped]

theorem arityFault?_relocate (s : Signature) (xs : List Expr) :
    arityFault? s (xs.map (Expr.relocate r)) = arityFault? s xs := by
  have hcount : positionalCount (xs.map (Expr.relocate r)) = positionalCount xs := by
    simp [positionalCount, List.countP_map, Function.comp_def]
  simp only [arityFault?, hcount]

variable {r}

theorem resolveOperands_relocate {s : Signature} {expected : ValueType} {xs : List Expr}
    (ih : ∀ x ∈ xs, ∀ type, resolve bind type (x.relocate r) =
      r.outcome (Expr.relocate r) (resolve bind type x)) (position : Nat) :
    resolveOperands bind s expected position (xs.map (Expr.relocate r)) =
      r.outcome (List.map (Expr.relocate r)) (resolveOperands bind s expected position xs) := by
  induction xs generalizing position with
  | nil => rfl
  | cons x xs ihxs =>
      obtain ⟨ihx, ihbelow⟩ := List.forall_mem_cons.mp ih
      have hrest := ihxs ihbelow
      rw [List.map_cons, resolveOperands, resolveOperands, isOptions_relocate]
      split
      · exact r.outcome_bind (hrest _) fun _ => rfl
      · split
        · exact r.outcome_bind (ihx _) fun _ => r.outcome_bind (hrest _) fun _ => rfl
        · exact r.outcome_bind (hrest _) fun _ => rfl

theorem resolveCases_relocate {expected : ValueType} {ps : List (Expr × Expr)}
    (ih : ∀ p ∈ ps, ∀ type,
      resolve bind type (p.1.relocate r) = r.outcome (Expr.relocate r) (resolve bind type p.1) ∧
      resolve bind type (p.2.relocate r) = r.outcome (Expr.relocate r) (resolve bind type p.2)) :
    resolveCases bind expected (ps.map fun p => (p.1.relocate r, p.2.relocate r)) =
      r.outcome (List.map fun p => (p.1.relocate r, p.2.relocate r))
        (resolveCases bind expected ps) := by
  induction ps with
  | nil => rfl
  | cons p ps ihps =>
      obtain ⟨ihp, ihbelow⟩ := List.forall_mem_cons.mp ih
      rw [List.map_cons, resolveCases, resolveCases]
      exact r.outcome_bind (ihp _).1 fun _ => r.outcome_bind (ihp _).2 fun _ =>
        r.outcome_bind (ihps ihbelow) fun _ => rfl

theorem resolveDefault_relocate {expected : ValueType} {es : List (String × Expr)}
    (ih : ∀ e ∈ es, ∀ type, resolve bind type (e.2.relocate r) =
      r.outcome (Expr.relocate r) (resolve bind type e.2)) :
    resolveDefault bind expected (es.map fun e => (e.1, e.2.relocate r)) =
      r.outcome (List.map fun e => (e.1, e.2.relocate r)) (resolveDefault bind expected es) := by
  induction es with
  | nil => rfl
  | cons e es ihes =>
      obtain ⟨ihe, ihbelow⟩ := List.forall_mem_cons.mp ih
      rw [List.map_cons, resolveDefault, resolveDefault]
      split
      · exact r.outcome_bind (ihe _) fun _ => rfl
      · exact r.outcome_bind (ihes ihbelow) fun _ => rfl

/-- **Resolution of a tree at other places** goes as that of the tree. -/
theorem resolve_relocate (hbind : BindsAlike r bind) (e : Expr) :
    ∀ expected, resolve bind expected (e.relocate r) =
      r.outcome (Expr.relocate r) (resolve bind expected e) := by
  induction e using inductClauses with
  | literal v o =>
      intro expected
      rw [relocate_literal, resolve_literal, resolve_literal]
      split
      · exact congrArg Except.ok (relocate_literal r v o).symm
      · rfl
  | reference k n o =>
      intro expected
      rw [relocate_reference, resolve_reference, resolve_reference]
      refine r.outcome_bind (hbind _ k n o) fun target => ?_
      exact congrArg Except.ok (adoptOrigin_relocate r target o)
  | bound t o =>
      intro expected
      rw [relocate_bound]
      exact congrArg Except.ok (relocate_bound r t o).symm
  | options es o _ =>
      intro expected
      rw [relocate_options]
      exact congrArg Except.ok (relocate_options r es o).symm
  | pairs ps o _ =>
      intro expected
      rw [relocate_pairs]
      exact congrArg Except.ok (relocate_pairs r ps o).symm
  | clause op xs o ih =>
      intro expected
      have hcases : ∀ {ps spot}, Expr.pairs ps spot ∈ xs → ∀ p ∈ ps, ∀ type,
          resolve bind type (p.1.relocate r) =
              r.outcome (Expr.relocate r) (resolve bind type p.1) ∧
            resolve bind type (p.2.relocate r) =
              r.outcome (Expr.relocate r) (resolve bind type p.2) :=
        fun hpairs p hp type => ⟨((ih _ hpairs).2 p hp).1 type, ((ih _ hpairs).2 p hp).2 type⟩
      rw [relocate_clause]
      cases resolving expected op xs with
      | unknown hs =>
          rw [resolve_unknown hs, resolve_unknown hs]
          rfl
      | mismatch hs hkind =>
          rw [resolve_mismatch hs hkind, resolve_mismatch hs hkind]
          rfl
      | grouped hs hkind hcond ps spot =>
          rw [List.map_singleton, relocate_pairs, resolve_grouped hs hkind hcond,
            resolve_grouped hs hkind hcond, List.isEmpty_map]
          split
          · rfl
          · exact r.outcome_bind (resolveCases_relocate (hcases List.mem_cons_self)) fun qs =>
              congrArg Except.ok (by simp)
      | groupedDefault hs hkind hcond ps spot es spot' =>
          have hentries : Expr.options es spot' ∈ [Expr.pairs ps spot, .options es spot'] :=
            List.mem_cons_of_mem _ List.mem_cons_self
          rw [List.map_cons, List.map_singleton, relocate_pairs, relocate_options,
            resolve_groupedDefault hs hkind hcond, resolve_groupedDefault hs hkind hcond,
            List.isEmpty_map]
          split
          · rfl
          · exact r.outcome_bind (resolveCases_relocate (hcases List.mem_cons_self)) fun qs =>
              r.outcome_bind (resolveDefault_relocate (ih _ hentries).2) fun fs =>
                congrArg Except.ok (by simp)
      | flat hs hkind hplain =>
          have hplain' : (isConditional op && isGrouped (xs.map (Expr.relocate r))) = false := by
            rw [isGrouped_relocate, hplain]
          rw [resolve_flat hs hkind hplain, resolve_flat hs hkind hplain', arityFault?_relocate]
          split
          · rfl
          · exact r.outcome_bind (resolveOperands_relocate (fun x hx => (ih x hx).1) 0) fun ys =>
              congrArg Except.ok (by simp)

end Relocate

/-- A schema knows no places. -/
theorem bindsAlike_bind {σ : Type} [Lookup σ] (r : Relocation) (context : Context σ) :
    BindsAlike r context.bind := by
  intro kind own name o
  unfold Context.bind
  split
  · exact congrArg Except.ok (relocate_reference r kind name none).symm
  · rename_i schema _
    rw [context.target_setSpan schema kind name o (o.map r.span)]
    cases htarget : context.target schema kind name o with
    | ok target => exact congrArg Except.ok (relocate_bound r target none).symm
    | error e =>
        rw [Relocation.outcome, ResolutionError.relocate, (Context.placed_of_target htarget).1]
        rfl

end QueryFormula
