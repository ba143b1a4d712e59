import QueryFormula.Proofs.Resolution.Success

/-!
# Expecting more

Where texts are expected, dates may be expected instead, and where texts, dates
or numbers are expected, any scalar may: a tree that is resolved at the one type
is resolved at the other, to the same tree (`resolve_widened`).

Compatibility is not transitive, so this does not come from the types alone.  One
type widens another (`ValueType.Widens`) when it accepts whatever the other does
and asks for the same kind of name; where an operand takes its type from its
context, a wider context makes it a wider type (`ValueType.Widens.operandType`).
-/

namespace QueryFormula

open QueryFormula.Expr

/-! ### Wider types -/

namespace ValueType

/-- Whatever is accepted at one type is accepted at the other, and a name is of
the same kind at both. -/
structure Widens (narrow wide : ValueType) : Prop where
  accepts : ∀ actual, narrow.accepts actual = true → wide.accepts actual = true
  nameKind : NameKind.ofType wide = NameKind.ofType narrow

namespace Widens

variable {narrow wide : ValueType}

protected theorem refl (type : ValueType) : Widens type type :=
  ⟨fun _ h => h, rfl⟩

protected theorem trans {middle : ValueType} (h : Widens narrow middle)
    (h' : Widens middle wide) : Widens narrow wide :=
  ⟨fun actual haccepts => h'.accepts actual (h.accepts actual haccepts),
    h'.nameKind.trans h.nameKind⟩

theorem string_datetime : Widens .string .datetime :=
  ⟨fun actual => by cases actual <;> decide, rfl⟩

theorem datetime_expression : Widens .datetime .expression :=
  ⟨fun actual => by cases actual <;> decide, rfl⟩

theorem number_expression : Widens .number .expression :=
  ⟨fun actual => by cases actual <;> decide, rfl⟩

end Widens

end ValueType

/-- Metrics are asked for where an aggregation is expected, and nowhere else. -/
theorem NameKind.ofType_eq_metric_iff {type : ValueType} :
    NameKind.ofType type = .metric ↔ type = .aggregation := by
  cases type <;> decide

/-- **Wider operands.**  An operand that takes the type of its context gets a wider
type in a wider context, and any other operand keeps its type. -/
theorem ValueType.Widens.operandType {narrow wide : ValueType} (h : narrow.Widens wide)
    (s : Signature) (declared : ValueType) :
    (QueryFormula.operandType s declared narrow).Widens
      (QueryFormula.operandType s declared wide) := by
  have haggregation : wide = .aggregation ↔ narrow = .aggregation := by
    rw [← NameKind.ofType_eq_metric_iff, h.nameKind, NameKind.ofType_eq_metric_iff]
  cases declared with
  | any => exact h
  | number | expression =>
      simp only [QueryFormula.operandType, haggregation]
      exact .refl _
  | aggregation | boolean | string | datetime => exact .refl _

/-! ### Wider expectations -/

variable {bind : Binder (Except ResolutionError)}

/-- What the tree is resolved to at one type it is resolved to at every wider one. -/
def StandsWidening (bind : Binder (Except ResolutionError)) (e : Expr) : Prop :=
  ∀ narrow wide r, ValueType.Widens narrow wide →
    resolve bind narrow e = .ok r → resolve bind wide e = .ok r

theorem OperandsResolve.widened {s : Signature} {narrow wide : ValueType}
    (hwide : narrow.Widens wide) {position : Nat} {xs ys : List Expr}
    (hxs : ∀ x ∈ xs, StandsWidening bind x)
    (h : OperandsResolve bind s narrow position xs ys) :
    OperandsResolve bind s wide position xs ys := by
  induction h with
  | nil => exact .nil
  | options hoptions _ ih => exact .options hoptions (ih (List.forall_mem_cons.mp hxs).2)
  | declared hvalue hdeclares hfirst _ ih =>
      obtain ⟨hx, hrest⟩ := List.forall_mem_cons.mp hxs
      exact .declared hvalue hdeclares (hx _ _ _ (hwide.operandType s _) hfirst) (ih hrest)
  | spare hvalue hundeclared _ ih =>
      exact .spare hvalue hundeclared (ih (List.forall_mem_cons.mp hxs).2)

/-- Tests stay conditions, and the values are expected to be what the conditional
is expected to be. -/
theorem resolveCases_widened {narrow wide : ValueType} (hwide : narrow.Widens wide)
    {ps qs : List (Expr × Expr)} (hps : ∀ p ∈ ps, StandsWidening bind p.2)
    (h : resolveCases bind narrow ps = .ok qs) : resolveCases bind wide ps = .ok qs := by
  rw [resolveCases_eq_ok_iff] at h ⊢
  induction h with
  | nil => exact .nil
  | cons hfirst _ ih =>
      obtain ⟨hp, hrest⟩ := List.forall_mem_cons.mp hps
      exact .cons ⟨hfirst.1, hp _ _ _ hwide hfirst.2⟩ (ih hrest)

theorem resolveDefault_widened {narrow wide : ValueType} (hwide : narrow.Widens wide)
    {es fs : List (String × Expr)} (hes : ∀ e ∈ es, StandsWidening bind e.2)
    (h : resolveDefault bind narrow es = .ok fs) : resolveDefault bind wide es = .ok fs :=
  resolveDefault_eq_ok_iff.mpr ((resolveDefault_eq_ok_iff.mp h).mono fun e he y =>
    hes e he _ _ y hwide)

/-- What a clause does with its operands it does in a wider context too. -/
theorem ClauseResolves.widened {s : Signature} {narrow wide : ValueType}
    (hwide : narrow.Widens wide) {op : String} {xs ys : List Expr}
    (hxs : ∀ x ∈ xs, StandsWidening bind x ∧ Within (StandsWidening bind) x)
    (h : ClauseResolves bind s narrow op xs ys) : ClauseResolves bind s wide op xs ys := by
  cases h with
  | cases hcond hany hfirst =>
      have hcases := (hxs _ List.mem_cons_self).2
      exact .cases hcond hany (resolveCases_widened hwide (fun p hp => (hcases p hp).2) hfirst)
  | casesDefault hcond hany hfirst hsecond =>
      obtain ⟨hcases, hdefault⟩ := List.forall_mem_cons.mp hxs
      have hentries := (hdefault _ List.mem_cons_self).2
      exact .casesDefault hcond hany
        (resolveCases_widened hwide (fun p hp => (hcases.2 p hp).2) hfirst)
        (resolveDefault_widened hwide hentries hsecond)
  | flat hplain hcount hoperands =>
      exact .flat hplain hcount (hoperands.widened hwide fun x hx => (hxs x hx).1)

/-- **A wider context.**  Whatever tree it is, and whatever its names are bound to. -/
theorem standsWidening (e : Expr) : StandsWidening bind e := by
  induction e using Expr.inductClauses with
  | literal v o =>
      intro narrow wide r hwide h
      rw [resolve_literal_eq_ok_iff] at h ⊢
      exact h.imp_left (hwide.accepts _)
  | reference k n o =>
      intro narrow wide r hwide h
      rw [resolve_reference] at h ⊢
      rwa [hwide.nameKind]
  | bound t o => exact fun _ _ _ _ h => h
  | options es o _ => exact fun _ _ _ _ h => h
  | pairs ps o _ => exact fun _ _ _ _ h => h
  | clause op xs o ih =>
      intro narrow wide r hwide h
      rw [resolve_clause_eq_ok_iff] at h ⊢
      obtain ⟨s, ys, hs, hkind, hoperands, hr⟩ := h
      exact ⟨s, ys, hs, hwide.accepts _ hkind, hoperands.widened hwide ih, hr⟩

/-- **Expecting more refuses nothing.**  What is resolved as a text is resolved as
a date, and what is resolved as a text, a date or a number is resolved as a
scalar; the resolved trees are the same. -/
theorem resolve_widened (bind : Binder (Except ResolutionError)) (e r : Expr) :
    (resolve bind .string e = .ok r → resolve bind .datetime e = .ok r) ∧
    ∀ type ∈ [ValueType.string, .datetime, .number],
      resolve bind type e = .ok r → resolve bind .expression e = .ok r := by
  refine ⟨standsWidening e _ _ r .string_datetime, fun type htype => ?_⟩
  have hwide : type.Widens .expression := by
    simp only [List.mem_cons, List.not_mem_nil, or_false] at htype
    rcases htype with rfl | rfl | rfl
    · exact .trans .string_datetime .datetime_expression
    · exact .datetime_expression
    · exact .number_expression
  exact standsWidening e _ _ r hwide

/-- The value and the default of a conditional, resolved as texts and as scalars. -/
theorem resolve_widened_conditional :
    let target := BoundRef.field 1 "type/Text"
    let bind : Binder (Except ResolutionError) := fun _ _ occurrence => .ok (.bound target occurrence.origin)
    let tree := Expr.clause "case"
      [.pairs [(.literal (.boolean true) none, .literal (.text "few") none)] none,
        .options [("default", .reference .dimension "Size" none)] none] none
    let result := Expr.clause "case"
      [.pairs [(.literal (.boolean true) none, .literal (.text "few") none)] none,
        .options [("default", .bound target none)] none] none
    resolve bind .string tree = .ok result ∧ resolve bind .datetime tree = .ok result ∧
      resolve bind .expression tree = .ok result := by
  intro target bind tree result
  have hstring : resolve bind .string tree = .ok result := rfl
  obtain ⟨hdatetime, hexpression⟩ := resolve_widened bind tree result
  exact ⟨hstring, hdatetime hstring, hexpression .string List.mem_cons_self hstring⟩

end QueryFormula
