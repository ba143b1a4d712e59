import Mathlib.Order.MinMax
import QueryFormula.Condition
import QueryFormula.NormalForm
import QueryFormula.Proofs.Expr.Rearrange

/-!
# Trees at other places

A `Relocation` moves spans and keeps the span around two spans around them.  Whatever is done
to a tree is done alike to the tree whose origins have been moved (`Expr.relocate`): the
steps to the normal form look at no place (`normalForm_relocate`), neither do the
comparisons with `true` (`compareConditions_relocate`), and trees that were the same stay
the same (`sameTree_relocate`).
-/

namespace QueryFormula

/-- A move of the places in one source to those in another, of beginnings and of ends. -/
structure Relocation where
  start : Nat → Nat
  stop : Nat → Nat
  start_mono : Monotone start
  stop_mono : Monotone stop

/-- Where a span is moved. -/
def Relocation.span (r : Relocation) (span : Span) : Span :=
  ⟨r.start span.start, r.stop span.stop⟩

/-- The span around two spans stays around them. -/
theorem Relocation.span_cover (r : Relocation) (a b : Span) :
    r.span (a.cover b) = (r.span a).cover (r.span b) := by
  rw [Span.cover, Span.cover, span, r.start_mono.map_min, r.stop_mono.map_max]
  rfl

namespace Expr

/-- The tree read from other places. -/
def relocate (r : Relocation) : Expr → Expr :=
  bottomUp fun e => e.setOrigin (e.origin.map r.span)

variable (r : Relocation)

section Equations

@[simp] theorem relocate_literal (v : Literal) (o : Option Span) :
    (literal v o).relocate r = literal v (o.map r.span) := by
  cases o <;> rfl

@[simp] theorem relocate_reference (k : NameKind) (n : String) (o : Option Span) :
    (reference k n o).relocate r = reference k n (o.map r.span) := by
  cases o <;> rfl

@[simp] theorem relocate_bound (t : BoundRef) (o : Option Span) :
    (bound t o).relocate r = bound t (o.map r.span) := by
  cases o <;> rfl

@[simp] theorem relocate_clause (op : String) (xs : List Expr) (o : Option Span) :
    (clause op xs o).relocate r = clause op (xs.map (relocate r)) (o.map r.span) := by
  rw [relocate, bottomUp, bottomUpAll_eq_map]
  cases o <;> rfl

@[simp] theorem relocate_options (es : List (String × Expr)) (o : Option Span) :
    (options es o).relocate r =
      options (es.map fun e => (e.1, e.2.relocate r)) (o.map r.span) := by
  rw [relocate, bottomUp, bottomUpEntries_eq_map]
  cases o <;> rfl

@[simp] theorem relocate_pairs (ps : List (Expr × Expr)) (o : Option Span) :
    (pairs ps o).relocate r =
      pairs (ps.map fun p => (p.1.relocate r, p.2.relocate r)) (o.map r.span) := by
  rw [relocate, bottomUp, bottomUpPairs_eq_map]
  cases o <;> rfl

@[simp] theorem origin_relocate (e : Expr) : (e.relocate r).origin = e.origin.map r.span := by
  cases e <;> simp [origin]

@[simp] theorem isLiteral_relocate (e : Expr) : (e.relocate r).isLiteral = e.isLiteral := by
  cases e <;> simp [isLiteral]

@[simp] theorem isOptions_relocate (e : Expr) : (e.relocate r).isOptions = e.isOptions := by
  cases e <;> simp [isOptions]

@[simp] theorem isPairs_relocate (e : Expr) : (e.relocate r).isPairs = e.isPairs := by
  cases e <;> simp [isPairs]

@[simp] theorem isTruthColumn_relocate (e : Expr) :
    (e.relocate r).isTruthColumn = e.isTruthColumn := by
  cases e <;> simp [isTruthColumn]

@[simp] theorem isSegment_relocate (e : Expr) : (e.relocate r).isSegment = e.isSegment := by
  cases e <;> simp [isSegment]

@[simp] theorem relocate_ofBool (b : Bool) : (ofBool b).relocate r = ofBool b :=
  relocate_literal r _ none

/-- A node without an origin adopts the new place of the old one. -/
theorem adoptOrigin_relocate (e : Expr) (o : Option Span) :
    (e.relocate r).adoptOrigin (o.map r.span) = (e.adoptOrigin o).relocate r := by
  cases e <;> rename_i p <;> cases p <;> simp [adoptOrigin, origin, setOrigin]

end Equations

/-- The step looks at no place. -/
def IgnoresPlaces (g : ClauseStep) : Prop :=
  ∀ (r : Relocation) (op : String) (xs : List Expr) (o : Option Span),
    g op (xs.map (relocate r)) (o.map r.span) = (g op xs o).relocate r

/-- A walk of such a step goes alike through a tree at other places. -/
theorem IgnoresPlaces.bottomUp {g : ClauseStep} (hg : IgnoresPlaces g) (e : Expr) :
    bottomUp (onClause g) (e.relocate r) = (bottomUp (onClause g) e).relocate r := by
  induction e with
  | literal v o => simp
  | reference k n o => simp
  | bound t o => simp
  | clause op xs o ih =>
      have hxs : (xs.map (relocate r)).map (Expr.bottomUp (onClause g)) =
          (xs.map (Expr.bottomUp (onClause g))).map (relocate r) := by
        simpa using ih
      rw [relocate_clause, bottomUp_clause_adopt, bottomUp_clause_adopt, hxs, hg,
        adoptOrigin_relocate]
  | options es o ih =>
      have hes : ∀ e ∈ es, Expr.bottomUp (onClause g) (e.2.relocate r) =
          (Expr.bottomUp (onClause g) e.2).relocate r := ih
      simpa using hes
  | pairs ps o ih =>
      simpa using ih

end Expr

open QueryFormula.Expr

/-! ### Each step -/

section Steps

variable (r : Relocation)

theorem shorthandOptions?_relocate (e : Expr) :
    shorthandOptions? (e.relocate r) = (shorthandOptions? e).map (relocate r) := by
  have hsetting : shorthandSetting? (e.relocate r) = shorthandSetting? e := by
    cases e with
    | literal v o =>
        rw [relocate_literal]
        unfold shorthandSetting?
        split <;> simp_all
    | _ => simp [shorthandSetting?]
  rw [shorthandOptions?, shorthandOptions?, hsetting, origin_relocate]
  cases shorthandSetting? e <;> simp

theorem ignoresPlaces_optionsOfShorthand : IgnoresPlaces optionsOfShorthand := by
  intro r op xs o
  have hlast : (xs.map (relocate r)).getLast?.bind shorthandOptions? =
      (xs.getLast?.bind shorthandOptions?).map (relocate r) := by
    rw [List.getLast?_map]
    cases xs.getLast? with
    | none => rfl
    | some x => exact shorthandOptions?_relocate r x
  unfold optionsOfShorthand
  rw [hlast]
  cases signature? op with
  | none => simp
  | some s =>
      cases xs.getLast?.bind shorthandOptions? with
      | none => simp
      | some c =>
          simp only [Option.map_some, List.length_map]
          split <;> simp

/-- A clause that is no `not` of one operand has the negation that its operator has. -/
theorem negateClause?_of_other {op : String} {xs : List Expr} (h : ∀ x, op = "not" → xs ≠ [x])
    (o p : Option Span) : negateClause? o (.clause op xs p) =
      (opposite? op).map fun opposite => .clause opposite xs o := by
  unfold negateClause?
  dsimp only
  split
  · exact absurd rfl (h _ rfl)
  · rfl

theorem shortenNegation_of_other {op : String} {xs : List Expr} (h : ∀ x, op = "not" → xs ≠ [x])
    (o : Option Span) : shortenNegation op xs o = .clause op xs o := by
  unfold shortenNegation
  split
  · exact absurd rfl (h _ rfl)
  · rfl

/-- Rebuilt operands are one operand where they were one. -/
theorem map_ne_singleton {op : String} {xs : List Expr} (h : ∀ x, op = "not" → xs ≠ [x])
    (f : Expr → Expr) : ∀ y, op = "not" → xs.map f ≠ [y] := by
  intro y hop hmap
  obtain ⟨x, hx, -⟩ := List.map_eq_singleton_iff.mp hmap
  exact h x hop hx

theorem negateClause?_relocate (o : Option Span) (e : Expr) :
    negateClause? (o.map r.span) (e.relocate r) = (negateClause? o e).map (relocate r) := by
  cases e with
  | clause op xs p =>
      rw [relocate_clause]
      by_cases hother : ∀ x, op = "not" → xs ≠ [x]
      · rw [negateClause?_of_other hother, negateClause?_of_other (map_ne_singleton hother _)]
        cases opposite? op <;> simp
      · push Not at hother
        obtain ⟨x, rfl, rfl⟩ := hother
        rfl
  | _ => simp [negateClause?]

theorem ignoresPlaces_shortenNegation : IgnoresPlaces shortenNegation := by
  intro r op xs o
  by_cases hother : ∀ x, op = "not" → xs ≠ [x]
  · rw [shortenNegation_of_other hother, shortenNegation_of_other (map_ne_singleton hother _),
      relocate_clause]
  · push Not at hother
    obtain ⟨x, rfl, rfl⟩ := hother
    rw [List.map_singleton, shortenNegation, shortenNegation, negateClause?_relocate]
    cases negateClause? o x <;> simp

@[simp] theorem relocate_noOptions : noOptions.relocate r = noOptions :=
  relocate_options r [] none

theorem leadsWithOptions_relocate (xs : List Expr) :
    leadsWithOptions (xs.map (relocate r)) = leadsWithOptions xs := by
  cases xs <;> simp [leadsWithOptions]

theorem ignoresPlaces_offsetOptions : IgnoresPlaces offsetOptions := by
  intro r op xs o
  unfold offsetOptions
  rw [leadsWithOptions_relocate]
  split <;> simp

theorem pairUp_relocate : ∀ xs : List Expr,
    pairUp (xs.map (relocate r)) =
      ((pairUp xs).1.map fun p => (p.1.relocate r, p.2.relocate r),
        (pairUp xs).2.map (relocate r))
  | [] => rfl
  | [_] => rfl
  | test :: value :: rest => by
      simp [pairUp, pairUp_relocate rest]

theorem operandsOrigin_relocate (xs : List Expr) :
    operandsOrigin (xs.map (relocate r)) = (operandsOrigin xs).map r.span := by
  have hbind : ∀ e : Option Expr, (e.map (relocate r)).bind Expr.origin =
      (e.bind Expr.origin).map r.span := by
    intro e
    cases e <;> simp
  rw [operandsOrigin, operandsOrigin, List.head?_map, List.getLast?_map, hbind, hbind]
  cases xs.head?.bind Expr.origin <;> cases xs.getLast?.bind Expr.origin <;> simp [r.span_cover]

theorem groupCases_relocate (xs : List Expr) :
    groupCases (xs.map (relocate r)) = (groupCases xs).map (relocate r) := by
  simp only [groupCases, pairUp_relocate, operandsOrigin_relocate]
  cases (pairUp xs).2 <;> simp

theorem ignoresPlaces_groupConditional : IgnoresPlaces groupConditional := by
  intro r op xs o
  have hhead : (xs.map (relocate r)).head?.any Expr.isPairs = xs.head?.any Expr.isPairs := by
    cases xs <;> simp
  unfold groupConditional
  rw [hhead, groupCases_relocate]
  split <;> simp

theorem ignoresPlaces_leadWithOptions : IgnoresPlaces leadWithOptions := by
  intro r op xs o
  simp only [leadWithOptions, leadsWithOptions_relocate, List.getLast?_map, List.length_map]
  split
  · simp
  · cases xs.getLast? with
    | none => simp
    | some last =>
        simp only [Option.map_some, isOptions_relocate]
        split <;> split <;> simp

theorem wrapLiteral_relocate (e : Expr) :
    wrapLiteral (e.relocate r) = (wrapLiteral e).relocate r := by
  unfold wrapLiteral
  rw [isLiteral_relocate]
  split <;> simp

/-- **The normal form** of a tree at other places. -/
theorem normalForm_relocate (e : Expr) :
    normalForm (e.relocate r) = (normalForm e).relocate r := by
  simp only [normalForm, normalizations, List.foldl_cons, List.foldl_nil, spellOutShorthands,
    foldNegations, completeOffsets, groupConditionals, hoistOptions,
    ignoresPlaces_optionsOfShorthand.bottomUp, ignoresPlaces_shortenNegation.bottomUp,
    ignoresPlaces_offsetOptions.bottomUp, ignoresPlaces_groupConditional.bottomUp,
    ignoresPlaces_leadWithOptions.bottomUp, wrapLiteral_relocate]

/-! ### Comparisons with `true` -/

theorem equalsTrue_relocate (e : Expr) :
    (e.relocate r).equalsTrue = e.equalsTrue.relocate r := by
  simp [equalsTrue]

theorem conditionTest_relocate (e : Expr) :
    conditionTest (e.relocate r) = (conditionTest e).relocate r := by
  unfold conditionTest
  rw [isTruthColumn_relocate, equalsTrue_relocate]
  split <;> rfl

theorem conditionTests_relocate (e : Expr) :
    conditionTests (e.relocate r) = (conditionTests e).relocate r := by
  cases e <;> simp [conditionTests, conditionTest_relocate]

theorem conditionOperands_relocate (s : Signature) (position : Nat) (xs : List Expr) :
    conditionOperands s position (xs.map (relocate r)) =
      (conditionOperands s position xs).map (relocate r) := by
  induction xs generalizing position with
  | nil => rfl
  | cons x xs ih =>
      simp only [List.map_cons, conditionOperands, isOptions_relocate, isTruthColumn_relocate,
        isSegment_relocate, equalsTrue_relocate, ih]
      split
      · rfl
      · split <;> rfl

theorem ignoresPlaces_conditionClause : IgnoresPlaces conditionClause := by
  intro r op xs o
  unfold conditionClause
  split
  · simp [conditionTests_relocate]
  · cases signature? op with
    | none => simp
    | some s => simp [conditionOperands_relocate]

/-- **Comparisons with `true`** in a tree at other places. -/
theorem compareConditions_relocate (e : Expr) :
    compareConditions (e.relocate r) = (compareConditions e).relocate r :=
  ignoresPlaces_conditionClause.bottomUp r e

end Steps

/-! ### The same trees -/

section SameTree

variable (r : Relocation) {xs : List Expr} {es : List (String × Expr)} {ps : List (Expr × Expr)}

theorem sameTrees_relocate
    (h : ∀ x ∈ xs, ∀ y : Expr, x.sameTree (y.relocate r) = x.sameTree y) (ys : List Expr) :
    sameTrees xs (ys.map (relocate r)) = sameTrees xs ys := by
  induction xs generalizing ys with
  | nil => cases ys <;> rfl
  | cons x xs ih =>
      obtain ⟨hx, hbelow⟩ := List.forall_mem_cons.mp h
      cases ys with
      | nil => rfl
      | cons y ys => rw [List.map_cons, sameTrees, sameTrees, hx, ih hbelow]

theorem sameEntries_relocate
    (h : ∀ e ∈ es, ∀ y : Expr, e.2.sameTree (y.relocate r) = e.2.sameTree y)
    (fs : List (String × Expr)) :
    sameEntries es (fs.map fun f => (f.1, f.2.relocate r)) = sameEntries es fs := by
  induction es generalizing fs with
  | nil => cases fs <;> rfl
  | cons e es ih =>
      obtain ⟨he, hbelow⟩ := List.forall_mem_cons.mp h
      cases fs with
      | nil => rfl
      | cons f fs => rw [List.map_cons, sameEntries, sameEntries, he, ih hbelow]

theorem samePairs_relocate
    (h : ∀ p ∈ ps, (∀ y : Expr, p.1.sameTree (y.relocate r) = p.1.sameTree y) ∧
      ∀ y : Expr, p.2.sameTree (y.relocate r) = p.2.sameTree y) (qs : List (Expr × Expr)) :
    samePairs ps (qs.map fun q => (q.1.relocate r, q.2.relocate r)) = samePairs ps qs := by
  induction ps generalizing qs with
  | nil => cases qs <;> rfl
  | cons p ps ih =>
      obtain ⟨⟨htest, hvalue⟩, hbelow⟩ := List.forall_mem_cons.mp h
      cases qs with
      | nil => rfl
      | cons q qs => rw [List.map_cons, samePairs, samePairs, htest, hvalue, ih hbelow]

/-- **The same tree** at other places is the same tree. -/
theorem sameTree_relocate (e : Expr) :
    ∀ y : Expr, e.sameTree (y.relocate r) = e.sameTree y := by
  induction e with
  | literal v o | reference k n o | bound t o =>
      intro y
      cases y <;> simp <;> rfl
  | clause op xs o ih =>
      intro y
      cases y with
      | clause f ys p => rw [relocate_clause, sameTree, sameTree, sameTrees_relocate r ih]
      | _ =>
          simp
          rfl
  | options es o ih =>
      intro y
      cases y with
      | options fs p => rw [relocate_options, sameTree, sameTree, sameEntries_relocate r ih]
      | _ =>
          simp
          rfl
  | pairs ps o ih =>
      intro y
      cases y with
      | pairs qs p => rw [relocate_pairs, sameTree, sameTree, samePairs_relocate r ih]
      | _ =>
          simp
          rfl

end SameTree

end QueryFormula
