import QueryFormula.Resolution.Resolve

/-!
# The ways to resolve a node

A literal is held against its place and a name is handed to the binder.  A clause is refused
for its operator or for its type, or it is resolved as a grouped conditional, with or without
a default, or operand by operand.  `resolving` says that there is no other way, and there is
an equation for each of them; so a fact about resolution is proved for one way at a time.
-/

namespace QueryFormula

/-- The operands are grouped as the operands of a conditional are. -/
def isGrouped : List Expr → Bool
  | [.pairs _ _] | [.pairs _ _, .options _ _] => true
  | _ => false

section Equations

variable {bind : Binder (Except ResolutionError)} {s : Signature} {expected : ValueType}
  {op : String} {o : Option Span}

theorem resolve_literal (v : Literal) (o : Option Span) :
    resolve bind expected (.literal v o) =
      if expected.accepts v.type then .ok (.literal v o)
      else .error (.typeMismatch expected (.literal v) o) := by
  rw [resolve]
  rfl

theorem resolve_reference (k : NameKind) (n : String) (o : Option Span) :
    resolve bind expected (.reference k n o) =
      bind (NameKind.ofType expected) n ⟨k, o⟩ >>= fun target => pure (target.adoptOrigin o) := by
  rw [resolve]

/-- A clause that is no grouped conditional is resolved operand by operand. -/
theorem resolve_flat (hs : signature? op = some s) (hkind : expected.accepts s.kind = true)
    {xs : List Expr} (hplain : (isConditional op && isGrouped xs) = false) :
    resolve bind expected (.clause op xs o) =
      match arityFault? s xs with
      | some arity => .error (.wrongArity s.displayName arity o)
      | none => resolveOperands bind s expected 0 xs >>= fun ys => pure (.clause op ys o) := by
  rw [resolve, hs]
  simp only [hkind, Bool.not_true, Bool.false_eq_true, if_false]
  split
  · rename_i hcond
    rw [hcond] at hplain
    cases hplain
  · rename_i hcond
    rw [hcond] at hplain
    cases hplain
  · rfl

theorem resolve_grouped (hs : signature? op = some s) (hkind : expected.accepts s.kind = true)
    (hcond : isConditional op = true) (ps : List (Expr × Expr)) (place : Option Span) :
    resolve bind expected (.clause op [.pairs ps place] o) =
      if ps.isEmpty then .error (.wrongArity s.displayName (.atLeast 2) o)
      else resolveCases bind expected ps >>= fun qs => pure (.clause op [.pairs qs place] o) := by
  rw [resolve, hs]
  simp only [hkind, Bool.not_true, Bool.false_eq_true, if_false, hcond]
  rfl

theorem resolve_groupedDefault (hs : signature? op = some s)
    (hkind : expected.accepts s.kind = true) (hcond : isConditional op = true)
    (ps : List (Expr × Expr)) (place : Option Span) (es : List (String × Expr))
    (spot : Option Span) :
    resolve bind expected (.clause op [.pairs ps place, .options es spot] o) =
      if ps.isEmpty then .error (.wrongArity s.displayName (.atLeast 2) o)
      else resolveCases bind expected ps >>= fun qs =>
        resolveDefault bind expected es >>= fun fs =>
          pure (.clause op [.pairs qs place, .options fs spot] o) := by
  rw [resolve, hs]
  simp only [hkind, Bool.not_true, Bool.false_eq_true, if_false, hcond]
  rfl

theorem resolve_mismatch (hs : signature? op = some s) (hkind : expected.accepts s.kind = false)
    (xs : List Expr) :
    resolve bind expected (.clause op xs o) =
      .error (.typeMismatch expected (.call s.displayName s.kind) o) := by
  rw [resolve, hs]
  simp only [hkind, Bool.not_false, if_true]
  rfl

theorem resolve_unknown (hs : signature? op = none) (xs : List Expr) :
    resolve bind expected (.clause op xs o) = .error (.unknownFunction op o) := by
  rw [resolve, hs]
  rfl

end Equations

/-- The ways to resolve a clause, one for each of the equations above. -/
inductive Resolving (expected : ValueType) (op : String) : List Expr → Prop
  | unknown {xs : List Expr} (hs : signature? op = none) : Resolving expected op xs
  | mismatch {xs : List Expr} {s : Signature} (hs : signature? op = some s)
      (hkind : expected.accepts s.kind = false) : Resolving expected op xs
  | grouped {s : Signature} (hs : signature? op = some s) (hkind : expected.accepts s.kind = true)
      (hcond : isConditional op = true) (ps : List (Expr × Expr)) (place : Option Span) :
      Resolving expected op [.pairs ps place]
  | groupedDefault {s : Signature} (hs : signature? op = some s)
      (hkind : expected.accepts s.kind = true) (hcond : isConditional op = true)
      (ps : List (Expr × Expr)) (place : Option Span) (es : List (String × Expr))
      (spot : Option Span) : Resolving expected op [.pairs ps place, .options es spot]
  | flat {xs : List Expr} {s : Signature} (hs : signature? op = some s)
      (hkind : expected.accepts s.kind = true)
      (hplain : (isConditional op && isGrouped xs) = false) : Resolving expected op xs

theorem resolving (expected : ValueType) (op : String) (xs : List Expr) :
    Resolving expected op xs := by
  cases hs : signature? op with
  | none => exact .unknown hs
  | some s =>
      cases hkind : expected.accepts s.kind with
      | false => exact .mismatch hs hkind
      | true =>
          cases hcond : isConditional op with
          | false => exact .flat hs hkind (by rw [hcond, Bool.false_and])
          | true =>
              cases hgrouped : isGrouped xs with
              | false => exact .flat hs hkind (by rw [hgrouped, Bool.and_false])
              | true =>
                  unfold isGrouped at hgrouped
                  split at hgrouped
                  · exact .grouped hs hkind hcond _ _
                  · exact .groupedDefault hs hkind hcond _ _ _ _
                  · cases hgrouped

end QueryFormula
