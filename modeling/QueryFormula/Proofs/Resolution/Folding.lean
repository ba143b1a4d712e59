import QueryFormula.Proofs.Grammar.RawTree
import QueryFormula.Proofs.NormalForm.Layout
import QueryFormula.Proofs.Resolution.Rules

/-!
# Folded negations and types

Negations are folded before types are checked.  A `not` that goes into a clause with an
opposite changes nothing for the checks: both clauses are of type `boolean` and want the
same operands.  Two `not` that go away leave an operand behind, which then stands where
a truth value was not asked for: `NOT NOT ([A] + 1)` becomes a number.

So a tree and its folded form are both resolved or both refused as long as whatever is
left behind is `isNeutral` to its place: no binder could tell whether a truth value is
asked for there (`resolves_foldNegations_iff`).
-/

namespace QueryFormula

open QueryFormula.Expr

variable {bind : Binder (Except ResolutionError)} {expected : ValueType}

/-! ### Trees as they are written -/

/-- The tree is resolved where this type is expected. -/
def Resolves (bind : Binder (Except ResolutionError)) (expected : ValueType) (e : Expr) : Prop :=
  ∃ r, resolve bind expected e = .ok r

instance (e : Expr) : Decidable (Resolves bind expected e) :=
  decidable_of_iff ((resolve bind expected e).toOption.isSome = true) (by
    unfold Resolves
    cases resolve bind expected e <;> simp [Except.toOption])

/-- The operands of a clause, from a position on, are resolved at the types that the clause
declares for them. -/
def OperandsFit (bind : Binder (Except ResolutionError)) (s : Signature) (expected : ValueType)
    (position : Nat) (xs : List Expr) : Prop :=
  ∀ i x declared, xs[i]? = some x → s.parameter? (position + i) = some declared →
    Resolves bind (operandType s declared expected) x

theorem operandsFit_cons {s : Signature} {position : Nat} {x : Expr} {xs : List Expr} :
    OperandsFit bind s expected position (x :: xs) ↔
      (∀ declared, s.parameter? position = some declared →
        Resolves bind (operandType s declared expected) x) ∧
      OperandsFit bind s expected (position + 1) xs := by
  constructor
  · intro h
    refine ⟨fun declared => h 0 x declared rfl, fun i y declared hy hdeclared => ?_⟩
    have hposition : position + 1 + i = position + (i + 1) := by omega
    exact h (i + 1) y declared hy (hposition ▸ hdeclared)
  · rintro ⟨hfirst, hrest⟩ i y declared hy hdeclared
    cases i with
    | zero =>
        cases hy
        exact hfirst declared hdeclared
    | succ i =>
        have hposition : position + (i + 1) = position + 1 + i := by omega
        exact hrest i y declared hy (hposition ▸ hdeclared)

/-- Plain operands are all counted. -/
theorem positionalCount_take_of_plain {xs : List Expr} (hplain : ∀ x ∈ xs, x.isPlain = true)
    {i : Nat} {x : Expr} (hx : xs[i]? = some x) : positionalCount (xs.take i) = i := by
  have hvalues : ∀ y ∈ xs.take i, (!y.isOptions) = true := fun y hy =>
    (Bool.not_eq_true' _).mpr (isOptions_of_isPlain (hplain y (List.mem_of_mem_take hy)))
  have hi := (List.getElem?_eq_some_iff.mp hx).1
  exact (List.countP_eq_length.mpr hvalues).trans (List.length_take_of_le (Nat.le_of_lt hi))

theorem exists_operandsResolve_iff {s : Signature} {xs : List Expr}
    (hplain : ∀ x ∈ xs, x.isPlain = true) {position : Nat} :
    (∃ ys, OperandsResolve bind s expected position xs ys) ↔
      OperandsFit bind s expected position xs := by
  constructor
  · rintro ⟨ys, h⟩ i x declared hx hdeclared
    have hresolved := h.exists_getElem? hx
    rw [positionalCount_take_of_plain hplain hx, hdeclared] at hresolved
    obtain ⟨y, -, ⟨-, type, htype, hy⟩ | ⟨his | hnone, -⟩⟩ := hresolved
    · cases htype
      exact ⟨y, hy⟩
    · cases (isOptions_of_isPlain (hplain x (List.mem_of_getElem? hx))).symm.trans his
    · cases hnone
  · intro h
    refine exists_operandsResolve fun i x declared hx _ hdeclares => h i x declared hx ?_
    rwa [positionalCount_take_of_plain hplain hx] at hdeclares

/-- **When a clause that is written is resolved.** -/
theorem resolves_clause_iff {op : String} {xs : List Expr} {o : Option Span}
    (hplain : ∀ x ∈ xs, x.isPlain = true) :
    Resolves bind expected (.clause op xs o) ↔
      ∃ s, signature? op = some s ∧ expected.accepts s.kind = true ∧
        arityFault? s xs = none ∧ OperandsFit bind s expected 0 xs := by
  constructor
  · rintro ⟨r, hr⟩
    obtain ⟨s, ys, hs, hkind, hclause, -⟩ := resolve_clause_eq_ok_iff.mp hr
    cases hclause with
    | cases => cases hplain _ List.mem_cons_self
    | casesDefault => cases hplain _ List.mem_cons_self
    | flat _ hcount hoperands =>
        exact ⟨s, hs, hkind, hcount, (exists_operandsResolve_iff hplain).mp ⟨ys, hoperands⟩⟩
  · rintro ⟨s, hs, hkind, hcount, hfit⟩
    obtain ⟨ys, hoperands⟩ := (exists_operandsResolve_iff hplain).mpr hfit
    have hflat : (isConditional op && isGrouped xs) = false := by
      have hgrouped : isGrouped xs = false := by
        unfold isGrouped
        split
        · cases hplain _ List.mem_cons_self
        · cases hplain _ List.mem_cons_self
        · rfl
      rw [hgrouped, Bool.and_false]
    exact ⟨_, resolve_clause_eq_ok_iff.mpr ⟨s, ys, hs, hkind, .flat hflat hcount hoperands, rfl⟩⟩

theorem resolves_literal_iff {v : Literal} {o : Option Span} :
    Resolves bind expected (.literal v o) ↔ expected.accepts v.type = true := by
  simp only [Resolves, resolve_literal_eq_ok_iff, exists_and_left, exists_eq', and_true]

/-! ### What is neutral to its place -/

/-- A value of this kind is accepted just when a truth value is accepted and this kind
passes for one. -/
def ValueType.likensTo (expected kind : ValueType) : Bool :=
  expected.accepts kind == (expected.accepts .boolean && ValueType.boolean.accepts kind)

mutual

/-- The tree is accepted just when a truth value is accepted and the tree passes for one,
whatever names are bound to. -/
def isNeutral (expected : ValueType) : Expr → Bool
  | .literal v _ => expected.likensTo v.type
  | .reference _ _ _ => expected == .boolean
  | .clause op xs _ =>
    match signature? op with
    | none => true
    | some s =>
      expected.likensTo s.kind && (!s.parameters.contains .any || areNeutral expected xs)
  | _ => true

/-- Operands of a clause that asks of them what is asked of itself. -/
def areNeutral (expected : ValueType) : List Expr → Bool
  | [] => true
  | x :: xs => isNeutral expected x && areNeutral expected xs

end

theorem areNeutral_iff {xs : List Expr} :
    areNeutral expected xs = true ↔ ∀ x ∈ xs, isNeutral expected x = true := by
  induction xs with
  | nil => simp [areNeutral]
  | cons x xs ih => rw [areNeutral, Bool.and_eq_true, ih, List.forall_mem_cons]

/-- Where a truth value is accepted, an operand is held against the same type as in a truth
value, unless it is held against the type of the clause. -/
theorem operandType_eq_of_accepts {s : Signature} {declared : ValueType}
    (haccepts : expected.accepts .boolean = true) (hdeclared : declared ≠ .any) :
    operandType s declared expected = operandType s declared .boolean := by
  have hne : expected ≠ .aggregation := by
    rintro rfl
    cases haccepts
  cases declared <;> simp_all [operandType]

/-- **What is neutral is checked as a truth value.** -/
theorem resolves_of_isNeutral {e : Expr} (hwritten : e.Written)
    (h : isNeutral expected e = true) :
    Resolves bind expected e ↔
      expected.accepts .boolean = true ∧ Resolves bind .boolean e := by
  induction hwritten with
  | literal v place =>
      rw [resolves_literal_iff, resolves_literal_iff, ← Bool.and_eq_true]
      exact iff_of_eq (congrArg (· = true) (eq_of_beq h))
  | name n place =>
      obtain rfl := eq_of_beq h
      exact ⟨fun hname => ⟨rfl, hname⟩, fun hname => hname.2⟩
  | @clause op xs place hxs ih =>
      have hplain : ∀ x ∈ xs, x.isPlain = true := fun x hx => (hxs x hx).isPlain
      rw [resolves_clause_iff hplain, resolves_clause_iff hplain]
      cases hs : signature? op with
      | none => simp
      | some s =>
          rw [isNeutral, hs] at h
          obtain ⟨hkind, hbelow⟩ := Bool.and_eq_true_iff.mp h
          have hkind := eq_of_beq hkind
          by_cases haccepts : expected.accepts .boolean = true
          · rw [haccepts, Bool.true_and] at hkind
            have hfit : OperandsFit bind s expected 0 xs ↔ OperandsFit bind s .boolean 0 xs := by
              refine forall₂_congr fun i x => forall₃_congr fun declared hx hdeclared => ?_
              by_cases hany : declared = .any
              · subst hany
                have hmem := mem_parameters_of_parameter? hdeclared
                have hneutral : areNeutral expected xs = true := by
                  simpa [hmem] using hbelow
                have hx' := List.mem_of_getElem? hx
                rw [operandType, operandType, ih x hx' (areNeutral_iff.mp hneutral x hx')]
                exact and_iff_right haccepts
              · rw [operandType_eq_of_accepts haccepts hany]
            simp only [Option.some.injEq, exists_eq_left', hkind, haccepts, hfit, true_and]
          · have hrefused := Bool.eq_false_iff.mpr haccepts
            rw [hrefused, Bool.false_and] at hkind
            simp [hkind, hrefused]

/-! ### What folding leaves behind -/

/-- What is left of two `not` once negations are folded, if the tree is such a pair. -/
def leftBehind? : Expr → Option Expr
  | .clause "not" [x] _ =>
    match foldNegations x with
    | .clause "not" [y] _ => some y
    | _ => none
  | _ => none

mutual

/-- What folding leaves behind is neutral to its place, wherever the checks go. -/
def isSteady (expected : ValueType) : Expr → Bool
  | .clause op xs o =>
    (leftBehind? (.clause op xs o)).all (isNeutral expected) &&
      match signature? op with
      | none => true
      | some s => areSteady s expected 0 xs
  | _ => true

/-- The same of the operands of a clause, from a position on. -/
def areSteady (s : Signature) (expected : ValueType) (position : Nat) : List Expr → Bool
  | [] => true
  | x :: xs =>
    ((s.parameter? position).all fun declared => isSteady (operandType s declared expected) x) &&
      areSteady s expected (position + 1) xs

end

theorem areSteady_cons {s : Signature} {position : Nat} {x : Expr} {xs : List Expr} :
    areSteady s expected position (x :: xs) = true ↔
      (∀ declared, s.parameter? position = some declared →
        isSteady (operandType s declared expected) x = true) ∧
      areSteady s expected (position + 1) xs = true := by
  rw [areSteady, Bool.and_eq_true, Option.all_eq_true]

theorem Expr.Written.shortenNegation {op : String} {xs : List Expr} {place : Span}
    (hxs : ∀ x ∈ xs, x.Written) : (shortenNegation op xs (some place)).Written :=
  shortenNegation_of_operands (fun _ _ => .clause place) (fun _ _ _ h => h.operand) hxs

/-- What folding makes of a clause that is written. -/
theorem foldNegations_clause {op : String} {xs : List Expr} {place : Span}
    (hxs : ∀ x ∈ xs, (foldNegations x).Written) :
    foldNegations (.clause op xs (some place)) =
      shortenNegation op (xs.map foldNegations) (some place) := by
  have hwritten : (shortenNegation op (xs.map foldNegations) (some place)).Written :=
    .shortenNegation (List.forall_mem_map.mpr hxs)
  rw [foldNegations, bottomUp_clause_adopt]
  exact hwritten.adoptOrigin_eq _

theorem Expr.Written.foldNegations {e : Expr} (h : e.Written) : (foldNegations e).Written := by
  induction h with
  | literal v place =>
      rw [QueryFormula.foldNegations, bottomUp_literal]
      exact .literal v place
  | name n place =>
      rw [QueryFormula.foldNegations, bottomUp_reference]
      exact .name n place
  | clause place _ ih =>
      rw [foldNegations_clause ih]
      exact .shortenNegation (List.forall_mem_map.mpr ih)

/-! ### Folding and the checks -/

/-- A negation is resolved where a truth value is accepted and negated. -/
theorem resolves_not_iff {x : Expr} {o : Option Span} (hplain : x.isPlain = true) :
    Resolves bind expected (.clause "not" [x] o) ↔
      expected.accepts .boolean = true ∧ Resolves bind .boolean x := by
  have hrow : ∃ s, signature? "not" = some s ∧ s.kind = .boolean ∧ s.parameters = [.boolean] ∧
      s.variadic = false ∧ s.takesOptions = false := by
    refine ⟨_, rfl, ?_⟩
    decide
  obtain ⟨s, hs, hkind, hparameters, hvariadic, htakes⟩ := hrow
  have hcount : arityFault? s [x] = none := by
    simp [arityFault?, positionalCount, isOptions_of_isPlain hplain, hvariadic, htakes,
      hparameters]
  have hdeclared : s.parameter? 0 = some .boolean := by simp [Signature.parameter?, hparameters]
  have hfit : OperandsFit bind s expected 0 [x] ↔ Resolves bind .boolean x := by
    rw [operandsFit_cons, hdeclared]
    constructor
    · exact fun h => h.1 .boolean rfl
    · refine fun h => ⟨fun declared hboolean => ?_, fun i y declared hy => ?_⟩
      · cases hboolean
        exact h
      · cases hy
  rw [resolves_clause_iff (List.forall_mem_singleton.mpr hplain), hs]
  simp only [Option.some.injEq, exists_eq_left', hkind, hcount, hfit, true_and]

/-- Opposites are conditions on the same operands. -/
theorem signatures_of_opposite? {op opposite : String} (h : opposite? op = some opposite) :
    ∃ s s', signature? op = some s ∧ signature? opposite = some s' ∧ s.kind = .boolean ∧
      s'.kind = .boolean ∧ s'.parameters = s.parameters ∧ s'.variadic = s.variadic ∧
      s'.takesOptions = s.takesOptions ∧ .any ∉ s.parameters := by
  unfold opposite? at h
  split at h
  all_goals cases h
  all_goals
    refine ⟨_, _, rfl, rfl, ?_⟩
    decide

/-- A clause is resolved where a truth value is accepted and its opposite is resolved. -/
theorem resolves_opposite_iff {op opposite : String} {xs : List Expr} {o p : Option Span}
    (hopp : opposite? op = some opposite) (hplain : ∀ x ∈ xs, x.isPlain = true) :
    Resolves bind expected (.clause opposite xs o) ↔
      expected.accepts .boolean = true ∧ Resolves bind .boolean (.clause op xs p) := by
  obtain ⟨s, s', hs, hs', hkind, hkind', hparameters, hvariadic, htakes, hany⟩ :=
    signatures_of_opposite? hopp
  rw [resolves_clause_iff hplain, resolves_clause_iff hplain, hs, hs']
  have hself : ValueType.boolean.accepts .boolean = true := rfl
  simp only [Option.some.injEq, exists_eq_left', hkind, hkind', hself, true_and]
  refine and_congr_right fun haccepts => ?_
  have hcount : arityFault? s' xs = arityFault? s xs := by
    rw [arityFault?, arityFault?, hparameters, hvariadic, htakes]
  have hparameter : ∀ position, s'.parameter? position = s.parameter? position := by
    intro position
    rw [Signature.parameter?, Signature.parameter?, hparameters, hvariadic]
  have hfit : OperandsFit bind s' expected 0 xs ↔ OperandsFit bind s .boolean 0 xs := by
    refine forall₂_congr fun i x => forall₂_congr fun declared hx => ?_
    rw [hparameter]
    refine forall_congr' fun hdeclared => ?_
    have hne : declared ≠ .any :=
      fun heq => hany (heq ▸ mem_parameters_of_parameter? hdeclared)
    have htype : operandType s' declared .boolean = operandType s declared .boolean := by
      cases declared <;> rfl
    rw [operandType_eq_of_accepts haccepts hne, htype]
  rw [hcount, hfit]

/-- Folding operands one by one. -/
theorem operandsFit_map_foldNegations {s : Signature} {position : Nat} {xs : List Expr}
    (hxs : ∀ x ∈ xs, ∀ type, isSteady type x = true →
      (Resolves bind type (foldNegations x) ↔ Resolves bind type x))
    (hsteady : areSteady s expected position xs = true) :
    OperandsFit bind s expected position (xs.map foldNegations) ↔
      OperandsFit bind s expected position xs := by
  induction xs generalizing position with
  | nil => exact Iff.rfl
  | cons x xs ih =>
      obtain ⟨hx, hbelow⟩ := List.forall_mem_cons.mp hxs
      obtain ⟨hfirst, hrest⟩ := areSteady_cons.mp hsteady
      rw [List.map_cons, operandsFit_cons, operandsFit_cons, ih hbelow hrest]
      refine and_congr_left' (forall₂_congr fun declared hdeclared => ?_)
      exact hx _ (hfirst declared hdeclared)

/-- Folding keeps the number of operands. -/
theorem arityFault?_map_foldNegations {s : Signature} {xs : List Expr}
    (hxs : ∀ x ∈ xs, x.Written) :
    arityFault? s (xs.map foldNegations) = arityFault? s xs := by
  have hcount : positionalCount (xs.map foldNegations) = positionalCount xs := by
    rw [positionalCount, List.countP_map, positionalCount]
    refine List.countP_congr fun x hx => ?_
    have hvalue := isOptions_of_isPlain (hxs x hx).isPlain
    have hfolded := isOptions_of_isPlain (hxs x hx).foldNegations.isPlain
    rw [Function.comp_apply, hvalue, hfolded]
  rw [arityFault?, arityFault?, hcount]

/-- The operand of a `not` is steady as a truth value. -/
theorem isSteady_of_not {x : Expr}
    (h : (match signature? "not" with
      | none => true
      | some s => areSteady s expected 0 [x]) = true) : isSteady .boolean x = true :=
  (areSteady_cons.mp h).1 .boolean rfl

/-- **Folding and the checks.** -/
theorem resolves_foldNegations_of_written {e : Expr} (hwritten : e.Written)
    (hsteady : isSteady expected e = true) :
    Resolves bind expected (foldNegations e) ↔ Resolves bind expected e := by
  induction hwritten generalizing expected with
  | literal v place => rw [foldNegations, bottomUp_literal]
  | name n place => rw [foldNegations, bottomUp_reference]
  | @clause op xs place hxs ih =>
      rw [isSteady, Bool.and_eq_true] at hsteady
      obtain ⟨hleft, hbelow⟩ := hsteady
      have hplain : ∀ x ∈ xs, x.isPlain = true := fun x hx => (hxs x hx).isPlain
      have hfolded : ∀ x ∈ xs.map foldNegations, x.Written :=
        List.forall_mem_map.mpr fun x hx => (hxs x hx).foldNegations
      rw [foldNegations_clause fun x hx => (hxs x hx).foldNegations]
      rcases shortenNegation_cases op (xs.map foldNegations) (some place) with
        ⟨-, hstep⟩ | ⟨y, p, rfl, hnot, hstep⟩ | ⟨f, opposite, ys, p, rfl, hneg, hopp, hstep⟩
      · -- the clause stays, and its operands are folded
        rw [hstep, resolves_clause_iff hplain,
          resolves_clause_iff fun x hx => (hfolded x hx).isPlain]
        refine exists_congr fun s => and_congr_right fun hs => and_congr_right fun _ => ?_
        rw [hs] at hbelow
        rw [arityFault?_map_foldNegations hxs,
          operandsFit_map_foldNegations (fun x hx _ hx' => ih x hx hx') hbelow]
      · -- both negations go
        obtain ⟨x, rfl, hx⟩ := List.map_eq_singleton_iff.mp hnot
        have hy : y.Written :=
          (hfolded _ (hnot ▸ List.mem_singleton_self _)).operand y (List.mem_singleton_self y)
        have hpair : leftBehind? (.clause "not" [x] (some place)) = some y := by
          rw [leftBehind?, hx]
          rfl
        have hneutral : isNeutral expected y = true := by
          rw [hpair] at hleft
          exact hleft
        have hinner : Resolves bind .boolean x ↔ Resolves bind .boolean y := by
          rw [← ih x (List.mem_singleton_self x) (isSteady_of_not hbelow), hx,
            resolves_not_iff hy.isPlain]
          exact and_iff_right rfl
        rw [hstep, resolves_of_isNeutral hy hneutral,
          resolves_not_iff (hplain x (List.mem_singleton_self x)), hinner]
      · -- the negation goes into the clause below
        obtain ⟨x, rfl, hx⟩ := List.map_eq_singleton_iff.mp hneg
        have hys : ∀ y ∈ ys, y.isPlain = true := fun y hy =>
          ((hfolded _ (hneg ▸ List.mem_singleton_self _)).operand y hy).isPlain
        rw [hstep, resolves_opposite_iff hopp hys, ← hx,
          ih x (List.mem_singleton_self x) (isSteady_of_not hbelow),
          resolves_not_iff (hplain x (List.mem_singleton_self x))]

/-- **Folding negations does not change what is accepted,** as long as what it leaves behind
is neutral to its place. -/
theorem resolves_foldNegations_iff {source : String} {tokens : List Token} {tree : Expr}
    (h : parse source tokens = .ok tree) (hsteady : isSteady expected tree = true) :
    Resolves bind expected (foldNegations tree) ↔ Resolves bind expected tree :=
  resolves_foldNegations_of_written (written_of_parse h) hsteady

/-- Columns, whose names are not looked up. -/
def unboundColumn : Context where
  mode := .expression
  stage := 0
  ownName := none
  schema := none

/-- Columns, over one table with nothing but a saved filter. -/
def savedFilter : Context where
  mode := .expression
  stage := 0
  ownName := none
  schema := some
    { database := ⟨none, none⟩
      stages := [{ fields := [], metrics := [], segments := [⟨7, "Open"⟩] }] }

/-- A double negation of a comparison, where any value may stand. -/
theorem resolves_foldNegations_comparison :
    ∃ tree, parse "NOT NOT ([A] = 1)" (tokenize "NOT NOT ([A] = 1)").tokens = .ok tree ∧
      isSteady .expression tree = true ∧
      (Resolves unboundColumn.bind .expression (foldNegations tree) ↔
        Resolves unboundColumn.bind .expression tree) := by
  obtain ⟨tree, htree, hsteady⟩ := exists_ok_of_any
    (show (parse "NOT NOT ([A] = 1)" (tokenize "NOT NOT ([A] = 1)").tokens).toOption.any
      (isSteady .expression) = true by decide +kernel)
  exact ⟨tree, htree, hsteady, resolves_foldNegations_iff htree hsteady⟩

/-- A number that is negated twice is accepted once the negations are gone, and the name of
a saved filter no longer is. -/
theorem foldNegations_leaves_behind :
    (∃ tree, parse "NOT NOT ([A] + 1)" (tokenize "NOT NOT ([A] + 1)").tokens = .ok tree ∧
      Resolves unboundColumn.bind .expression (foldNegations tree) ∧
      ¬ Resolves unboundColumn.bind .expression tree) ∧
    (∃ tree, parse "NOT NOT [Open]" (tokenize "NOT NOT [Open]").tokens = .ok tree ∧
      ¬ Resolves savedFilter.bind .expression (foldNegations tree) ∧
      Resolves savedFilter.bind .expression tree) := by
  obtain ⟨sum, hsum, haccepted⟩ := exists_ok_of_any
    (show (parse "NOT NOT ([A] + 1)" (tokenize "NOT NOT ([A] + 1)").tokens).toOption.any
      (fun tree => Resolves unboundColumn.bind .expression (foldNegations tree) ∧
        ¬ Resolves unboundColumn.bind .expression tree) = true by decide +kernel)
  obtain ⟨name, hname, hrefused⟩ := exists_ok_of_any
    (show (parse "NOT NOT [Open]" (tokenize "NOT NOT [Open]").tokens).toOption.any
      (fun tree => ¬ Resolves savedFilter.bind .expression (foldNegations tree) ∧
        Resolves savedFilter.bind .expression tree) = true by decide +kernel)
  exact ⟨⟨sum, hsum, of_decide_eq_true haccepted⟩, name, hname, of_decide_eq_true hrefused⟩

end QueryFormula
