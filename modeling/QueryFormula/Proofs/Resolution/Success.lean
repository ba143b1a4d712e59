import QueryFormula.Proofs.Expr.Nodes
import QueryFormula.Proofs.Lists
import QueryFormula.Proofs.Resolution.Ways
import QueryFormula.Proofs.Result

/-!
# When a tree is resolved

A clause is resolved just when the catalog holds it, its type is accepted, and
its operands are resolved: as grouped cases (`ClauseResolves.cases`,
`ClauseResolves.casesDefault`), or one by one (`ClauseResolves.flat`), each at
the type of its position.  Options are passed over, and so is an operand behind
the declared ones.

What holds of every tree and its resolution is shown by `resolve_induct`, with a
case for each way in which a node is resolved.
-/

namespace QueryFormula

variable (bind : Binder (Except ResolutionError))

/-- The operands of a clause from a position on, and what they are resolved to. -/
inductive OperandsResolve (s : Signature) (expected : ValueType) :
    Nat → List Expr → List Expr → Prop
  | nil {position : Nat} : OperandsResolve s expected position [] []
  | options {position : Nat} {x : Expr} {xs ys : List Expr} (is : x.isOptions = true)
      (rest : OperandsResolve s expected position xs ys) :
      OperandsResolve s expected position (x :: xs) (x :: ys)
  | declared {position : Nat} {type : ValueType} {x y : Expr} {xs ys : List Expr}
      (value : x.isOptions = false) (declares : s.parameter? position = some type)
      (first : resolve bind (operandType s type expected) x = .ok y)
      (rest : OperandsResolve s expected (position + 1) xs ys) :
      OperandsResolve s expected position (x :: xs) (y :: ys)
  /-- An operand that no argument declares stays as it is. -/
  | spare {position : Nat} {x : Expr} {xs ys : List Expr}
      (value : x.isOptions = false) (undeclared : s.parameter? position = none)
      (rest : OperandsResolve s expected (position + 1) xs ys) :
      OperandsResolve s expected position (x :: xs) (x :: ys)

theorem resolveOperands_eq_ok_iff {s : Signature} {expected : ValueType} {position : Nat}
    {xs ys : List Expr} :
    resolveOperands bind s expected position xs = .ok ys ↔
      OperandsResolve bind s expected position xs ys := by
  induction xs generalizing position ys with
  | nil =>
      rw [resolveOperands, pure_eq_ok_iff]
      constructor
      · rintro rfl
        exact .nil
      · rintro ⟨⟩
        rfl
  | cons x xs ih =>
      rw [resolveOperands]
      by_cases hoptions : x.isOptions = true
      · rw [if_pos hoptions]
        simp only [bind_eq_ok_iff, pure_eq_ok_iff, ih]
        constructor
        · rintro ⟨zs, hrest, rfl⟩
          exact .options hoptions hrest
        · intro h
          cases h with
          | options _ hrest => exact ⟨_, hrest, rfl⟩
          | declared hvalue => exact absurd hoptions (Bool.eq_false_iff.mp hvalue)
          | spare hvalue => exact absurd hoptions (Bool.eq_false_iff.mp hvalue)
      · have hvalue := Bool.eq_false_iff.mpr hoptions
        rw [if_neg hoptions]
        cases hdeclared : s.parameter? position with
        | some type =>
            simp only [bind_eq_ok_iff, pure_eq_ok_iff, ih]
            constructor
            · rintro ⟨y, hfirst, zs, hrest, rfl⟩
              exact .declared hvalue hdeclared hfirst hrest
            · intro h
              cases h with
              | options his => exact absurd his hoptions
              | declared _ hdeclares hfirst hrest =>
                  cases hdeclared.symm.trans hdeclares
                  exact ⟨_, hfirst, _, hrest, rfl⟩
              | spare _ hundeclared => cases hdeclared.symm.trans hundeclared
        | none =>
            simp only [bind_eq_ok_iff, pure_eq_ok_iff, ih]
            constructor
            · rintro ⟨zs, hrest, rfl⟩
              exact .spare hvalue hdeclared hrest
            · intro h
              cases h with
              | options his => exact absurd his hoptions
              | declared _ hdeclares => cases hdeclared.symm.trans hdeclares
              | spare _ _ hrest => exact ⟨_, hrest, rfl⟩

variable {bind} in
/-- An operand behind resolution was there before or was resolved. -/
theorem OperandsResolve.exists_of_mem {s : Signature} {expected : ValueType} {position : Nat}
    {xs ys : List Expr} (h : OperandsResolve bind s expected position xs ys) {y : Expr}
    (hy : y ∈ ys) : y ∈ xs ∨ ∃ x ∈ xs, ∃ type, resolve bind type x = .ok y := by
  induction h with
  | nil => cases hy
  | options _ _ ih | spare _ _ _ ih =>
      rcases List.mem_cons.mp hy with rfl | hy
      · exact .inl List.mem_cons_self
      rcases ih hy with hkept | ⟨x, hx, hresolved⟩
      · exact .inl (List.mem_cons_of_mem _ hkept)
      · exact .inr ⟨x, List.mem_cons_of_mem _ hx, hresolved⟩
  | declared _ _ hfirst _ ih =>
      rcases List.mem_cons.mp hy with rfl | hy
      · exact .inr ⟨_, List.mem_cons_self, _, hfirst⟩
      rcases ih hy with hkept | ⟨x, hx, hresolved⟩
      · exact .inl (List.mem_cons_of_mem _ hkept)
      · exact .inr ⟨x, List.mem_cons_of_mem _ hx, hresolved⟩

variable {bind} in
/-- Cases are resolved one by one: a test as a condition, and a value as the conditional. -/
theorem resolveCases_eq_ok_iff {expected : ValueType} {ps qs : List (Expr × Expr)} :
    resolveCases bind expected ps = .ok qs ↔
      List.Forall₂ (fun p q => resolve bind .boolean p.1 = .ok q.1 ∧
        resolve bind expected p.2 = .ok q.2) ps qs := by
  induction ps generalizing qs with
  | nil => rw [resolveCases, pure_eq_ok_iff, List.forall₂_nil_left_iff, eq_comm]
  | cons p ps ih =>
      rcases p with ⟨test, value⟩
      simp only [resolveCases, bind_eq_ok_iff, pure_eq_ok_iff, ih, List.forall₂_cons_left_iff]
      constructor
      · rintro ⟨test', htest, value', hvalue, rest, hrest, rfl⟩
        exact ⟨(test', value'), rest, ⟨htest, hvalue⟩, hrest, rfl⟩
      · rintro ⟨⟨test', value'⟩, rest, ⟨htest, hvalue⟩, hrest, rfl⟩
        exact ⟨test', htest, value', hvalue, rest, hrest, rfl⟩

/-- Entries in which the first default is replaced by something that it is in relation to; the
other entries stay. -/
inductive DefaultReplaced (R : Expr → Expr → Prop) :
    List (String × Expr) → List (String × Expr) → Prop
  | nil : DefaultReplaced R [] []
  | default {x y : Expr} {es : List (String × Expr)} (replaced : R x y) :
      DefaultReplaced R (("default", x) :: es) (("default", y) :: es)
  | other {key : String} {x : Expr} {es fs : List (String × Expr)} (other : key ≠ "default")
      (rest : DefaultReplaced R es fs) : DefaultReplaced R ((key, x) :: es) ((key, x) :: fs)

namespace DefaultReplaced

variable {R S : Expr → Expr → Prop} {es fs : List (String × Expr)}

theorem mono (h : DefaultReplaced R es fs) (hes : ∀ e ∈ es, ∀ y, R e.2 y → S e.2 y) :
    DefaultReplaced S es fs := by
  induction h with
  | nil => exact .nil
  | default replaced => exact .default (hes _ List.mem_cons_self _ replaced)
  | other hother _ ih => exact .other hother (ih (List.forall_mem_cons.mp hes).2)

theorem keys_eq (h : DefaultReplaced R es fs) : fs.map Prod.fst = es.map Prod.fst := by
  induction h with
  | nil => rfl
  | default => rfl
  | other _ _ ih => exact congrArg (_ :: ·) ih

theorem exists_of_mem (h : DefaultReplaced R es fs) {f : String × Expr} (hf : f ∈ fs) :
    f ∈ es ∨ ∃ e ∈ es, R e.2 f.2 := by
  induction h with
  | nil => cases hf
  | default replaced =>
      rcases List.mem_cons.mp hf with rfl | hf
      · exact .inr ⟨_, List.mem_cons_self, replaced⟩
      · exact .inl (List.mem_cons_of_mem _ hf)
  | other _ _ ih =>
      rcases List.mem_cons.mp hf with rfl | hf
      · exact .inl List.mem_cons_self
      · refine (ih hf).imp (List.mem_cons_of_mem _) ?_
        exact fun ⟨e, he, hrelated⟩ => ⟨e, List.mem_cons_of_mem _ he, hrelated⟩

/-- Any other key is looked up as before. -/
theorem lookup_eq (h : DefaultReplaced R es fs) {key : String} (hkey : key ≠ "default") :
    fs.lookup key = es.lookup key := by
  induction h with
  | nil => rfl
  | default => rw [List.lookup_cons, List.lookup_cons, beq_false_of_ne hkey]
  | other _ _ ih => rw [List.lookup_cons, List.lookup_cons, ih]

/-- The default that is looked up is the one that is replaced. -/
theorem lookup_default (h : DefaultReplaced R es fs) :
    (es.lookup "default" = none ∧ fs.lookup "default" = none) ∨
      ∃ x y, es.lookup "default" = some x ∧ fs.lookup "default" = some y ∧ R x y := by
  induction h with
  | nil => exact .inl ⟨rfl, rfl⟩
  | default replaced => exact .inr ⟨_, _, rfl, rfl, replaced⟩
  | other hother _ ih =>
      rwa [List.lookup_cons, List.lookup_cons, beq_false_of_ne (Ne.symm hother)]

theorem exists_of_lookup (h : DefaultReplaced R es fs) {x : Expr}
    (hx : es.lookup "default" = some x) : ∃ y, fs.lookup "default" = some y ∧ R x y := by
  obtain ⟨hnone, -⟩ | ⟨x', y, hx', hy, hrelated⟩ := h.lookup_default
  · cases hnone.symm.trans hx
  · cases hx'.symm.trans hx
    exact ⟨y, hy, hrelated⟩

/-- A default that is there afterwards has replaced one that was there before. -/
theorem exists_before (h : DefaultReplaced R es fs) {y : Expr}
    (hy : fs.lookup "default" = some y) : ∃ e ∈ es, R e.2 y := by
  obtain ⟨-, hnone⟩ | ⟨x, y', hx, hy', hrelated⟩ := h.lookup_default
  · cases hnone.symm.trans hy
  · cases hy'.symm.trans hy
    exact ⟨_, Expr.mem_of_lookup hx, hrelated⟩

/-- Entries can be replaced if there is no default or something is in relation to it. -/
theorem exists_of_forall (h : ∀ x, es.lookup "default" = some x → ∃ y, R x y) :
    ∃ fs, DefaultReplaced R es fs := by
  induction es with
  | nil => exact ⟨[], .nil⟩
  | cons e es ih =>
      rcases e with ⟨key, x⟩
      rw [List.lookup_cons] at h
      by_cases hkey : key = "default"
      · subst hkey
        obtain ⟨y, hy⟩ := h x rfl
        exact ⟨_, .default hy⟩
      · rw [beq_false_of_ne (Ne.symm hkey)] at h
        obtain ⟨fs, hfs⟩ := ih h
        exact ⟨_, .other hkey hfs⟩

/-- Entries stay as they are if the default is in relation to itself. -/
theorem self_iff :
    DefaultReplaced R es es ↔ ∀ x, es.lookup "default" = some x → R x x := by
  constructor
  · intro h x hx
    obtain ⟨y, hy, hrelated⟩ := h.exists_of_lookup hx
    cases hx.symm.trans hy
    exact hrelated
  · intro h
    induction es with
    | nil => exact .nil
    | cons e es ih =>
        rcases e with ⟨key, x⟩
        rw [List.lookup_cons] at h
        by_cases hkey : key = "default"
        · subst hkey
          exact .default (h x rfl)
        · rw [beq_false_of_ne (Ne.symm hkey)] at h
          exact .other hkey (ih h)

/-- A default alone. -/
theorem singleton {x : Expr} (h : DefaultReplaced R [("default", x)] fs) :
    ∃ y, fs = [("default", y)] ∧ R x y := by
  cases h with
  | default replaced => exact ⟨_, rfl, replaced⟩
  | other hother => exact absurd rfl hother

end DefaultReplaced

variable {bind} in
/-- The first default is resolved as the conditional itself, and the other entries stay. -/
theorem resolveDefault_eq_ok_iff {expected : ValueType} {es fs : List (String × Expr)} :
    resolveDefault bind expected es = .ok fs ↔
      DefaultReplaced (fun x y => resolve bind expected x = .ok y) es fs := by
  induction es generalizing fs with
  | nil =>
      rw [resolveDefault, pure_eq_ok_iff]
      constructor
      · rintro rfl
        exact .nil
      · rintro ⟨⟩
        rfl
  | cons e es ih =>
      rcases e with ⟨key, x⟩
      rw [resolveDefault]
      by_cases hkey : key = "default"
      · subst hkey
        simp only [if_true, bind_eq_ok_iff, pure_eq_ok_iff]
        constructor
        · rintro ⟨y, hresolved, rfl⟩
          exact .default hresolved
        · intro h
          cases h with
          | default hresolved => exact ⟨_, hresolved, rfl⟩
          | other hother => exact absurd rfl hother
      · simp only [if_neg hkey, bind_eq_ok_iff, pure_eq_ok_iff, ih]
        constructor
        · rintro ⟨fs, hrest, rfl⟩
          exact .other hkey hrest
        · intro h
          cases h with
          | default => exact absurd rfl hkey
          | other _ hrest => exact ⟨_, hrest, rfl⟩

/-- The operands of a clause of the catalog, and what they are resolved to. -/
inductive ClauseResolves (s : Signature) (expected : ValueType) (op : String) :
    List Expr → List Expr → Prop
  | cases {ps qs : List (Expr × Expr)} {place : Option Span}
      (conditional : isConditional op = true) (any : ps ≠ [])
      (first : resolveCases bind expected ps = .ok qs) :
      ClauseResolves s expected op [.pairs ps place] [.pairs qs place]
  | casesDefault {ps qs : List (Expr × Expr)} {place : Option Span}
      {es fs : List (String × Expr)} {spot : Option Span}
      (conditional : isConditional op = true) (any : ps ≠ [])
      (first : resolveCases bind expected ps = .ok qs)
      (second : resolveDefault bind expected es = .ok fs) :
      ClauseResolves s expected op [.pairs ps place, .options es spot]
        [.pairs qs place, .options fs spot]
  | flat {xs ys : List Expr} (plain : (isConditional op && isGrouped xs) = false)
      (count : arityFault? s xs = none) (operands : OperandsResolve bind s expected 0 xs ys) :
      ClauseResolves s expected op xs ys

variable {bind}

theorem resolve_literal_eq_ok_iff {expected : ValueType} {v : Literal} {o : Option Span}
    {r : Expr} :
    resolve bind expected (.literal v o) = .ok r ↔
      expected.accepts v.type = true ∧ .literal v o = r := by
  rw [resolve_literal]
  split
  · rename_i haccepts
    rw [Except.ok.injEq, haccepts, eq_self_iff_true, true_and]
  · rename_i hrefused
    exact iff_of_false (fun h => by cases h) fun h => hrefused h.1

/-- A name is replaced by what the binder finds for it. -/
theorem resolve_reference_eq_ok_iff {expected : ValueType} {k : NameKind} {n : String}
    {o : Option Span} {r : Expr} :
    resolve bind expected (.reference k n o) = .ok r ↔
      ∃ target, bind (NameKind.ofType expected) n ⟨k, o⟩ = .ok target ∧
        target.adoptOrigin o = r := by
  simp only [resolve_reference, bind_eq_ok_iff, pure_eq_ok_iff]

/-- A clause of an accepted type is resolved if its operands are. -/
theorem resolve_of_clauseResolves {expected : ValueType} {op : String} {xs ys : List Expr}
    {s : Signature} (hs : signature? op = some s) (hkind : expected.accepts s.kind = true)
    (h : ClauseResolves bind s expected op xs ys) (o : Option Span) :
    resolve bind expected (.clause op xs o) = .ok (.clause op ys o) := by
  cases h with
  | cases hcond hany hfirst =>
      rw [resolve_grouped hs hkind hcond, if_neg (mt List.isEmpty_iff.mp hany), hfirst]
      rfl
  | casesDefault hcond hany hfirst hsecond =>
      rw [resolve_groupedDefault hs hkind hcond, if_neg (mt List.isEmpty_iff.mp hany), hfirst]
      exact bind_eq_ok_iff.mpr ⟨_, rfl, bind_eq_ok_iff.mpr ⟨_, hsecond, rfl⟩⟩
  | flat hplain hcount hoperands =>
      rw [resolve_flat hs hkind hplain, hcount]
      exact bind_eq_ok_iff.mpr ⟨ys, (resolveOperands_eq_ok_iff bind).mpr hoperands, rfl⟩

/-- **A clause is resolved** to a clause of the same operator, just when the
catalog holds it, its type is accepted, and its operands are resolved. -/
theorem resolve_clause_eq_ok_iff {expected : ValueType} {op : String} {xs : List Expr}
    {o : Option Span} {r : Expr} :
    resolve bind expected (.clause op xs o) = .ok r ↔
      ∃ s ys, signature? op = some s ∧ expected.accepts s.kind = true ∧
        ClauseResolves bind s expected op xs ys ∧ .clause op ys o = r := by
  constructor
  · intro h
    cases resolving expected op xs with
    | unknown hs =>
        rw [resolve_unknown hs] at h
        cases h
    | mismatch hs hkind =>
        rw [resolve_mismatch hs hkind] at h
        cases h
    | grouped hs hkind hcond ps place =>
        rw [resolve_grouped hs hkind hcond] at h
        split at h
        · cases h
        · rename_i hany
          obtain ⟨qs, hfirst, hr⟩ := bind_eq_ok_iff.mp h
          exact ⟨_, _, hs, hkind, .cases hcond (mt List.isEmpty_iff.mpr hany) hfirst,
            pure_eq_ok_iff.mp hr⟩
    | groupedDefault hs hkind hcond ps place es spot =>
        rw [resolve_groupedDefault hs hkind hcond] at h
        split at h
        · cases h
        · rename_i hany
          obtain ⟨qs, hfirst, hrest⟩ := bind_eq_ok_iff.mp h
          obtain ⟨fs, hsecond, hr⟩ := bind_eq_ok_iff.mp hrest
          exact ⟨_, _, hs, hkind,
            .casesDefault hcond (mt List.isEmpty_iff.mpr hany) hfirst hsecond,
            pure_eq_ok_iff.mp hr⟩
    | flat hs hkind hplain =>
        rw [resolve_flat hs hkind hplain] at h
        split at h
        · cases h
        · rename_i hcount
          obtain ⟨ys, hoperands, hr⟩ := bind_eq_ok_iff.mp h
          exact ⟨_, ys, hs, hkind,
            .flat hplain hcount ((resolveOperands_eq_ok_iff bind).mp hoperands),
            pure_eq_ok_iff.mp hr⟩
  · rintro ⟨s, ys, hs, hkind, hoperands, rfl⟩
    exact resolve_of_clauseResolves hs hkind hoperands o

/-- **Induction over resolution.**  Grouped cases and a default are related to what they are
resolved to; operands that are resolved one by one are met in their list. -/
theorem resolve_induct {motive : ValueType → Expr → Expr → Prop}
    (literal : ∀ expected v o, expected.accepts v.type = true →
      motive expected (.literal v o) (.literal v o))
    (reference : ∀ expected k n o r, bind (NameKind.ofType expected) n ⟨k, o⟩ = .ok r →
      motive expected (.reference k n o) (r.adoptOrigin o))
    (bound : ∀ expected t o, motive expected (.bound t o) (.bound t o))
    (options : ∀ expected es o, motive expected (.options es o) (.options es o))
    (pairs : ∀ expected ps o, motive expected (.pairs ps o) (.pairs ps o))
    (cases : ∀ expected op ps qs place o s, signature? op = some s →
      expected.accepts s.kind = true → isConditional op = true → ps ≠ [] →
      List.Forall₂ (fun p q => motive .boolean p.1 q.1 ∧ motive expected p.2 q.2) ps qs →
      motive expected (.clause op [.pairs ps place] o) (.clause op [.pairs qs place] o))
    (casesDefault : ∀ expected op ps qs place es fs spot o s, signature? op = some s →
      expected.accepts s.kind = true → isConditional op = true → ps ≠ [] →
      List.Forall₂ (fun p q => motive .boolean p.1 q.1 ∧ motive expected p.2 q.2) ps qs →
      DefaultReplaced (motive expected) es fs →
      motive expected (.clause op [.pairs ps place, .options es spot] o)
        (.clause op [.pairs qs place, .options fs spot] o))
    (flat : ∀ expected op xs ys o s, signature? op = some s → expected.accepts s.kind = true →
      (isConditional op && isGrouped xs) = false → arityFault? s xs = none →
      OperandsResolve bind s expected 0 xs ys →
      (∀ x ∈ xs, ∀ type r, resolve bind type x = .ok r → motive type x r) →
      motive expected (.clause op xs o) (.clause op ys o))
    {expected : ValueType} {e r : Expr} (h : resolve bind expected e = .ok r) :
    motive expected e r := by
  induction e using Expr.inductClauses generalizing expected r with
  | literal v o =>
      obtain ⟨haccepts, rfl⟩ := resolve_literal_eq_ok_iff.mp h
      exact literal expected v o haccepts
  | reference k n o =>
      obtain ⟨target, htarget, rfl⟩ := resolve_reference_eq_ok_iff.mp h
      exact reference expected k n o target htarget
  | bound t o =>
      cases h
      exact bound expected t o
  | options es o _ =>
      cases h
      exact options expected es o
  | pairs ps o _ =>
      cases h
      exact pairs expected ps o
  | clause op xs o ih =>
      obtain ⟨s, ys, hs, hkind, hoperands, rfl⟩ := resolve_clause_eq_ok_iff.mp h
      have hcases : ∀ ps place qs, Expr.pairs ps place ∈ xs →
          resolveCases bind expected ps = .ok qs →
          List.Forall₂ (fun p q => motive .boolean p.1 q.1 ∧ motive expected p.2 q.2) ps qs := by
        intro ps place qs hpairs hresolved
        have hboth := (List.forall₂_and_left _ _).mpr
          ⟨(ih _ hpairs).2, resolveCases_eq_ok_iff.mp hresolved⟩
        exact hboth.imp fun p q ⟨⟨ihtest, ihvalue⟩, htest, hvalue⟩ =>
          ⟨ihtest htest, ihvalue hvalue⟩
      cases hoperands with
      | cases hcond hany hfirst =>
          exact cases _ _ _ _ _ _ _ hs hkind hcond hany (hcases _ _ _ List.mem_cons_self hfirst)
      | @casesDefault ps qs place es fs spot hcond hany hfirst hsecond =>
          have hentries : Expr.options es spot ∈ [Expr.pairs ps place, .options es spot] :=
            List.mem_cons_of_mem _ List.mem_cons_self
          exact casesDefault _ _ _ _ _ _ _ _ _ _ hs hkind hcond hany
            (hcases _ _ _ List.mem_cons_self hfirst)
            ((resolveDefault_eq_ok_iff.mp hsecond).mono fun e he _ hresolved =>
              (ih _ hentries).2 e he hresolved)
      | flat hplain hcount hlist =>
          exact flat _ _ _ _ _ _ hs hkind hplain hcount hlist fun x hx _ _ hresolved =>
            (ih x hx).1 hresolved

/-! ### Binders that answer with names -/

/-- A binder answers a name with a name or with what a name is bound to. -/
def AnswersNames (bind : Binder (Except ResolutionError)) : Prop :=
  ∀ kind name occurrence r, bind kind name occurrence = .ok r →
    (∃ k n place, r = .reference k n place) ∨ ∃ target place, r = .bound target place

/-- Resolution keeps options and grouped cases apart from the rest. -/
theorem kinds_of_resolve (hbind : AnswersNames bind) {expected : ValueType} {x y : Expr}
    (h : resolve bind expected x = .ok y) :
    y.isPairs = x.isPairs ∧ y.isOptions = x.isOptions := by
  cases x with
  | literal v o =>
      obtain ⟨-, rfl⟩ := resolve_literal_eq_ok_iff.mp h
      exact ⟨rfl, rfl⟩
  | reference k n o =>
      obtain ⟨target, htarget, rfl⟩ := resolve_reference_eq_ok_iff.mp h
      rcases hbind _ _ _ _ htarget with ⟨kind, name, place, rfl⟩ | ⟨target, place, rfl⟩ <;>
        cases place <;> exact ⟨rfl, rfl⟩
  | clause op xs o =>
      obtain ⟨s, ys, -, -, -, rfl⟩ := resolve_clause_eq_ok_iff.mp h
      exact ⟨rfl, rfl⟩
  | bound | options | pairs =>
      cases h
      exact ⟨rfl, rfl⟩

/-- What is no options object is resolved to none. -/
theorem isOptions_of_resolve (hbind : AnswersNames bind) {expected : ValueType} {x y : Expr}
    (hx : x.isOptions = false) (h : resolve bind expected x = .ok y) : y.isOptions = false :=
  (kinds_of_resolve hbind h).2.trans hx

end QueryFormula
