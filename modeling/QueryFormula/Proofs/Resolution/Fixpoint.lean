import QueryFormula.Proofs.Resolution.Aggregation
import QueryFormula.Proofs.Resolution.Rules

/-!
# Compiled trees are fixed

A compiled tree is resolved to itself in the context that it was compiled in, and has no
conditions left to compare (`compile_fixed`).

Three facts make this up.  Resolving again changes nothing, if what stands for a name stands
for it once more (`resolve_resolve`).  Comparing again changes nothing
(`compareConditions_compareConditions`).  And comparisons keep a tree fixed that is resolved
to itself (`fixed_compareConditions`): each takes the place of a condition, and wants nothing
but scalars.
-/

namespace QueryFormula

open QueryFormula.Expr

/-- The tree is resolved to itself where a type is expected. -/
def Fixed (bind : Binder (Except ResolutionError)) (expected : ValueType) (e : Expr) : Prop :=
  resolve bind expected e = .ok e

/-- What a name is bound to is fixed where the name stood. -/
def BindsFixed (bind : Binder (Except ResolutionError)) : Prop :=
  ∀ expected name occurrence target,
    bind (NameKind.ofType expected) name occurrence = .ok target →
      Fixed bind expected (target.adoptOrigin occurrence.origin)

variable {bind : Binder (Except ResolutionError)} {s : Signature} {expected : ValueType}
  {op : String} {o : Option Span}

theorem fixed_bound (target : BoundRef) (o : Option Span) :
    Fixed bind expected (.bound target o) :=
  rfl

theorem fixed_pairs (ps : List (Expr × Expr)) (o : Option Span) :
    Fixed bind expected (.pairs ps o) :=
  rfl

/-- Cases are fixed if the tests are conditions that are, and the values where the
conditional stands. -/
theorem resolveCases_self_iff {ps : List (Expr × Expr)} :
    resolveCases bind expected ps = .ok ps ↔
      ∀ p ∈ ps, Fixed bind .boolean p.1 ∧ Fixed bind expected p.2 := by
  rw [resolveCases_eq_ok_iff, List.forall₂_same]
  exact Iff.rfl

/-- Cases that are fixed one by one can stand for those that were resolved. -/
theorem fixed_of_cases {ps qs : List (Expr × Expr)} (hany : ps ≠ [])
    (h : List.Forall₂ (fun _ q => Fixed bind .boolean q.1 ∧ Fixed bind expected q.2) ps qs) :
    qs ≠ [] ∧ resolveCases bind expected qs = .ok qs := by
  refine ⟨fun hnil => hany (List.length_eq_zero_iff.mp (h.length_eq.trans (hnil ▸ rfl))), ?_⟩
  refine resolveCases_self_iff.mpr fun q hq => ?_
  obtain ⟨_, _, hfixed⟩ := exists_mem_of_forall₂ h.flip hq
  exact hfixed

/-- Entries are fixed if the default is. -/
theorem resolveDefault_self_iff {es : List (String × Expr)} :
    resolveDefault bind expected es = .ok es ↔
      ∀ value, es.lookup "default" = some value → Fixed bind expected value :=
  resolveDefault_eq_ok_iff.trans DefaultReplaced.self_iff

/-! ### The kinds of operands -/

theorem isGrouped_iff {xs : List Expr} :
    isGrouped xs = true ↔ xs.map isPairs = [true] ∨
      xs.map isPairs = [true, false] ∧ xs.map isOptions = [false, true] := by
  constructor
  · intro h
    unfold isGrouped at h
    split at h
    · exact .inl rfl
    · exact .inr ⟨rfl, rfl⟩
    · cases h
  · rintro (hpairs | ⟨hpairs, hoptions⟩)
    · obtain ⟨x, rfl, hx⟩ := List.map_eq_singleton_iff.mp hpairs
      cases x with
      | pairs => rfl
      | _ => cases hx
    · obtain ⟨x, rest, rfl, hx, hrest⟩ := List.map_eq_cons_iff.mp hpairs
      obtain ⟨c, rfl, -⟩ := List.map_eq_singleton_iff.mp hrest
      have hc : c.isOptions = true := by
        simpa using congrArg List.getLast? hoptions
      cases x with
      | pairs =>
          cases c with
          | options => rfl
          | _ => cases hc
      | _ => cases hx

/-- Operands of the same kinds are grouped alike. -/
theorem isGrouped_congr {xs ys : List Expr} (hpairs : ys.map isPairs = xs.map isPairs)
    (hoptions : ys.map isOptions = xs.map isOptions) : isGrouped ys = isGrouped xs := by
  rw [Bool.eq_iff_iff, isGrouped_iff, isGrouped_iff, hpairs, hoptions]

/-- There are enough operands and not too many, whatever they are. -/
theorem arityFault?_congr {xs ys : List Expr} (h : ys.map isOptions = xs.map isOptions) :
    arityFault? s ys = arityFault? s xs := by
  rw [arityFault?, arityFault?, (counts_of_map_isOptions h).1]

/-- A clause with fixed operands is fixed, if one with operands of the same kinds is resolved
operand by operand. -/
theorem fixed_flat {xs ys : List Expr} (hs : signature? op = some s)
    (hkind : expected.accepts s.kind = true)
    (hplain : (isConditional op && isGrouped xs) = false) (hcount : arityFault? s xs = none)
    (hpairs : isConditional op = true → ys.map isPairs = xs.map isPairs)
    (hoptions : ys.map isOptions = xs.map isOptions)
    (hys : OperandsResolve bind s expected 0 ys ys) : Fixed bind expected (.clause op ys o) := by
  refine resolve_of_clauseResolves hs hkind (.flat ?_ ?_ hys) o
  · cases hcond : isConditional op with
    | false => rfl
    | true => rwa [hcond, ← isGrouped_congr (hpairs hcond) hoptions] at hplain
  · rwa [arityFault?_congr hoptions]

/-! ### Resolving again -/

section Again

variable (hbind : AnswersNames bind)
include hbind

theorem OperandsResolve.kinds {position : Nat} {xs ys : List Expr}
    (h : OperandsResolve bind s expected position xs ys) :
    ys.map isPairs = xs.map isPairs ∧ ys.map isOptions = xs.map isOptions := by
  induction h with
  | nil => exact ⟨rfl, rfl⟩
  | options _ _ ih | spare _ _ _ ih => simp only [List.map_cons, ih, and_self]
  | declared _ _ hfirst _ ih =>
      simp only [List.map_cons, ih, kinds_of_resolve hbind hfirst, and_self]

/-- Operands are resolved again as they were, if each of them is. -/
theorem OperandsResolve.again {position : Nat} {xs ys : List Expr}
    (h : OperandsResolve bind s expected position xs ys)
    (hxs : ∀ x ∈ xs, ∀ type r, resolve bind type x = .ok r → Fixed bind type r) :
    OperandsResolve bind s expected position ys ys := by
  induction h with
  | nil => exact .nil
  | options his _ ih => exact .options his (ih (List.forall_mem_cons.mp hxs).2)
  | declared hvalue hdeclares hfirst _ ih =>
      obtain ⟨hx, hbelow⟩ := List.forall_mem_cons.mp hxs
      have hvalue' := (kinds_of_resolve hbind hfirst).2.trans hvalue
      exact .declared hvalue' hdeclares (hx _ _ hfirst) (ih hbelow)
  | spare hvalue hundeclared _ ih =>
      exact .spare hvalue hundeclared (ih (List.forall_mem_cons.mp hxs).2)

/-- **Resolving again** changes nothing, if what stands for a name stands for it once more. -/
theorem resolve_resolve (hfixed : BindsFixed bind) {e r : Expr}
    (h : resolve bind expected e = .ok r) : Fixed bind expected r := by
  refine resolve_induct (motive := fun expected _ r => Fixed bind expected r)
    ?literal ?reference ?bound ?options ?pairs ?cases ?casesDefault ?flat h
  case literal => exact fun _ v o haccepts => resolve_literal_eq_ok_iff.mpr ⟨haccepts, rfl⟩
  case reference => exact fun _ _ _ _ _ htarget => hfixed _ _ _ _ htarget
  case bound => exact fun _ t o => fixed_bound t o
  case options => exact fun _ _ _ => rfl
  case pairs => exact fun _ ps o => fixed_pairs ps o
  case cases =>
    intro _ op ps qs place o s hs hkind hcond hany hcases
    obtain ⟨hany', hfirst⟩ := fixed_of_cases hany hcases
    exact resolve_of_clauseResolves hs hkind (.cases hcond hany' hfirst) o
  case casesDefault =>
    intro _ op ps qs place es fs spot o s hs hkind hcond hany hcases hentries
    obtain ⟨hany', hfirst⟩ := fixed_of_cases hany hcases
    have hsecond := resolveDefault_self_iff.mpr fun value hvalue =>
      (hentries.exists_before hvalue).elim fun _ hreplaced => hreplaced.2
    exact resolve_of_clauseResolves hs hkind (.casesDefault hcond hany' hfirst hsecond) o
  case flat =>
    intro _ op xs ys o s hs hkind hplain hcount hoperands ih
    obtain ⟨hpairs, hoptions⟩ := hoperands.kinds hbind
    exact fixed_flat hs hkind hplain hcount (fun _ => hpairs) hoptions
      (hoperands.again hbind ih)

end Again

/-! ### Comparing again -/

/-- There is nothing left to compare among the operands. -/
def Compared (op : String) (operands : List Expr) : Prop :=
  ∀ o, conditionClause op operands o = .clause op operands o

/-- A comparison is a condition, and wants two scalars. -/
theorem signature?_equals : ∃ s, signature? "=" = some s ∧
    ValueType.boolean.accepts s.kind = true ∧
    s.parameter? 0 = some .expression ∧ s.parameter? 1 = some .expression ∧
    ∀ xs, positionalCount xs = 2 → arityFault? s xs = none :=
  ⟨_, rfl, rfl, rfl, rfl, fun xs h => by rw [arityFault?, h]; rfl⟩

/-- Nothing in a comparison with `true` is compared. -/
theorem everyClause_equalsTrue (target : BoundRef) (place : Option Span) :
    EveryClause Compared (equalsTrue (.bound target place)) := by
  obtain ⟨s, hs, -, hfirst, hsecond, -⟩ := signature?_equals
  have hcompared : Compared "=" [.bound target place, ofBool true] := by
    intro o
    rw [conditionClause, if_neg (by decide), hs]
    simp [conditionOperands, hfirst, hsecond]
  refine (everyClause_clause _ _ _).mpr ⟨hcompared, fun x hx => ?_⟩
  obtain rfl | rfl : x = .bound target place ∨ x = ofBool true := by simpa using hx
  · exact everyClause_bound target place
  · exact everyClause_literal _ _

theorem conditionTest_conditionTest (e : Expr) :
    conditionTest (conditionTest e) = conditionTest e := by
  by_cases hcolumn : e.isTruthColumn = true
  · rw [show conditionTest e = e.equalsTrue from if_pos hcolumn]
    rfl
  · have hkept : conditionTest e = e := if_neg hcolumn
    rw [hkept, hkept]

theorem conditionTests_conditionTests (e : Expr) :
    conditionTests (conditionTests e) = conditionTests e := by
  cases e with
  | pairs ps o =>
      simp only [conditionTests, List.map_map, Function.comp_def, conditionTest_conditionTest]
  | _ => rfl

theorem conditionOperands_conditionOperands (s : Signature) (position : Nat) (xs : List Expr) :
    conditionOperands s position (conditionOperands s position xs) =
      conditionOperands s position xs := by
  induction xs generalizing position with
  | nil => rfl
  | cons x xs ih =>
      by_cases hoptions : x.isOptions = true
      · simp only [conditionOperands, hoptions, if_true, ih]
      · by_cases hcompared : ((x.isTruthColumn || x.isSegment) &&
            s.parameter? position == some .boolean) = true
        · have hvalue : x.equalsTrue.isOptions = false := rfl
          have hbare : (x.equalsTrue.isTruthColumn || x.equalsTrue.isSegment) = false := rfl
          simp only [conditionOperands, hoptions, if_false, hcompared, if_true, hvalue, hbare,
            Bool.false_and, Bool.false_eq_true, ih]
        · simp only [conditionOperands, hoptions, if_false, hcompared, Bool.false_eq_true, ih]

/-- The step leaves nothing to compare in a clause. -/
theorem compared_of_conditionClause {xs ys : List Expr}
    (hys : conditionClause op xs o = .clause op ys o) : Compared op ys := by
  intro o'
  unfold conditionClause at hys
  by_cases hcond : isConditional op = true
  · rw [if_pos hcond] at hys
    cases hys
    simp only [conditionClause, hcond, if_true, List.map_map, Function.comp_def,
      conditionTests_conditionTests]
  · rw [if_neg hcond] at hys
    rw [conditionClause, if_neg hcond]
    cases hs : signature? op with
    | none => rfl
    | some s =>
        rw [hs] at hys
        cases hys
        exact congrArg (Expr.clause op · o') (conditionOperands_conditionOperands s 0 xs)

theorem everyClause_conditionClause {xs : List Expr} (h : ∀ x ∈ xs, EveryClause Compared x) :
    EveryClause Compared (conditionClause op xs o) := by
  obtain ⟨ys, hys, hoperands⟩ := exists_conditionClause op xs o
  rw [hys, everyClause_clause]
  exact ⟨compared_of_conditionClause hys, BecomesOperand.keepsAll
    (fun target place _ => everyClause_equalsTrue target place) everyClause_pairs hoperands h⟩

/-- **Comparing again** changes nothing. -/
theorem compareConditions_compareConditions (e : Expr) :
    compareConditions (compareConditions e) = compareConditions e := by
  have hcompared : EveryClause Compared (compareConditions e) :=
    everyClause_bottomUp (fun _ _ _ _ hxs => everyClause_conditionClause hxs)
      (everyClause_true e)
  exact bottomUp_eq_self (fun _ _ o h => h o) hcompared

/-! ### Comparisons in fixed trees -/

/-- A comparison is fixed where a condition is expected. -/
theorem fixed_equalsTrue {e : Expr} (hbare : (e.isTruthColumn || e.isSegment) = true) :
    Fixed bind .boolean e.equalsTrue := by
  cases e with
  | bound target place =>
      obtain ⟨s, hs, hkind, hfirst, hsecond, hcount⟩ := signature?_equals
      exact resolve_of_clauseResolves hs hkind (.flat rfl (hcount _ rfl)
        (.declared rfl hfirst rfl (.declared rfl hsecond rfl .nil))) _
  | _ => cases hbare

theorem fixed_conditionTest {e : Expr} (h : Fixed bind .boolean e) :
    Fixed bind .boolean (conditionTest e) := by
  unfold conditionTest
  split
  · rename_i hcolumn
    exact fixed_equalsTrue (by rw [hcolumn, Bool.true_or])
  · exact h

/-- Grouped cases are fixed as an operand, whatever is in them. -/
theorem fixed_conditionTests {e : Expr} (h : Fixed bind expected e) :
    Fixed bind expected (conditionTests e) := by
  cases e with
  | pairs ps o => exact fixed_pairs _ o
  | _ => exact h

/-- Comparisons keep operands fixed. -/
theorem fixed_conditionOperands {position : Nat} {xs : List Expr}
    (h : OperandsResolve bind s expected position xs xs) :
    OperandsResolve bind s expected position (conditionOperands s position xs)
      (conditionOperands s position xs) := by
  induction xs generalizing position with
  | nil => exact .nil
  | cons x xs ih =>
      rw [conditionOperands]
      cases h with
      | options his hrest =>
          rw [if_pos his]
          exact .options his (ih hrest)
      | declared hvalue hdeclares hfirst hrest =>
          rw [if_neg (Bool.eq_false_iff.mp hvalue)]
          dsimp only
          split
          · rename_i hcompared
            obtain ⟨hbare, hboolean⟩ := Bool.and_eq_true_iff.mp hcompared
            cases hdeclares.symm.trans (beq_iff_eq.mp hboolean)
            exact .declared rfl hdeclares (fixed_equalsTrue hbare) (ih hrest)
          · exact .declared hvalue hdeclares hfirst (ih hrest)
      | spare hvalue hundeclared hrest =>
          have hnever : (none == some ValueType.boolean) = false := rfl
          rw [if_neg (Bool.eq_false_iff.mp hvalue), hundeclared]
          simp only [hnever, Bool.and_false, Bool.false_eq_true, if_false]
          exact .spare hvalue hundeclared (ih hrest)

/-- A walk that keeps fixed operands fixed keeps the operands of a clause so. -/
theorem OperandsResolve.map_self {f : Expr → Expr} (hf : ∀ x, (f x).isOptions = x.isOptions)
    {position : Nat} {xs : List Expr} (h : OperandsResolve bind s expected position xs xs)
    (hxs : ∀ x ∈ xs, ∀ type, Fixed bind type x → Fixed bind type (f x)) :
    OperandsResolve bind s expected position (xs.map f) (xs.map f) := by
  induction xs generalizing position with
  | nil => exact .nil
  | cons x xs ih =>
      obtain ⟨hx, hbelow⟩ := List.forall_mem_cons.mp hxs
      cases h with
      | options his hrest => exact .options ((hf x).trans his) (ih hrest hbelow)
      | declared hvalue hdeclares hfirst hrest =>
          exact .declared ((hf x).trans hvalue) hdeclares (hx _ hfirst) (ih hrest hbelow)
      | spare hvalue hundeclared hrest =>
          exact .spare ((hf x).trans hvalue) hundeclared (ih hrest hbelow)

theorem fixed_comparedCases {ps : List (Expr × Expr)} (hany : ps ≠ [])
    (h : ∀ p ∈ ps, Fixed bind .boolean (compareConditions p.1) ∧
      Fixed bind expected (compareConditions p.2)) :
    let qs := ps.map fun p => (conditionTest (compareConditions p.1), compareConditions p.2)
    qs ≠ [] ∧ resolveCases bind expected qs = .ok qs :=
  fixed_of_cases hany (List.forall₂_map_right_iff.mpr (List.forall₂_same.mpr fun p hp =>
    ⟨fixed_conditionTest (h p hp).1, (h p hp).2⟩))

/-- Comparisons keep a clause fixed that is resolved operand by operand. -/
theorem fixed_comparedOperands {xs : List Expr} (hs : signature? op = some s)
    (hkind : expected.accepts s.kind = true)
    (hplain : (isConditional op && isGrouped xs) = false) (hcount : arityFault? s xs = none)
    (hoperands : OperandsResolve bind s expected 0 xs xs)
    (hxs : ∀ x ∈ xs, ∀ type, Fixed bind type x → Fixed bind type (compareConditions x)) :
    Fixed bind expected (compareConditions (.clause op xs o)) := by
  have hmapped := hoperands.map_self rearranges_conditionClause.isOptions hxs
  rw [compareConditions_clause, conditionClause]
  by_cases hcond : isConditional op = true
  · rw [if_pos hcond]
    refine fixed_flat hs hkind hplain hcount (fun _ => ?_) ?_
      (hmapped.map_self isOptions_conditionTests fun _ _ _ => fixed_conditionTests)
    · rw [List.map_map, List.map_map]
      exact List.map_congr_left fun x _ =>
        (isPairs_conditionTests _).trans (rearranges_conditionClause.isPairs x)
    · rw [← map_isOptions_compareConditions xs, List.map_map]
      exact List.map_congr_left fun x _ => isOptions_conditionTests x
  · rw [if_neg hcond, hs]
    refine fixed_flat hs hkind hplain hcount (fun h => absurd h hcond) ?_
      (fixed_conditionOperands hmapped)
    rw [map_isOptions_conditionOperands, map_isOptions_compareConditions]

/-- **Comparisons keep a fixed tree fixed.** -/
theorem fixed_compareConditions {e : Expr} (h : Fixed bind expected e) :
    Fixed bind expected (compareConditions e) := by
  refine resolve_induct
    (motive := fun expected e r => r = e → Fixed bind expected (compareConditions e))
    ?literal ?reference ?bound ?options ?pairs ?cases ?casesDefault ?flat h rfl
  case literal =>
    intro _ v o haccepts _
    rw [compareConditions, bottomUp_literal]
    exact resolve_literal_eq_ok_iff.mpr ⟨haccepts, rfl⟩
  case reference =>
    intro _ k n o target htarget hsame
    rw [compareConditions, bottomUp_reference]
    exact resolve_reference_eq_ok_iff.mpr ⟨target, htarget, hsame⟩
  case bound =>
    intro _ t o _
    rw [compareConditions, bottomUp_bound]
    exact fixed_bound t o
  case options =>
    intro _ es o _
    rw [compareConditions, bottomUp_options]
    rfl
  case pairs =>
    intro _ ps o _
    rw [compareConditions, bottomUp_pairs]
    exact fixed_pairs _ o
  case cases =>
    intro _ op ps qs place o s hs hkind hcond hany hcases hsame
    cases hsame
    obtain ⟨hany', hfirst⟩ := fixed_comparedCases hany fun p hp =>
      (List.forall₂_same.mp hcases p hp).imp (· rfl) (· rfl)
    rw [compareConditions_clause, conditionClause, if_pos hcond]
    simp only [List.map_cons, List.map_nil, conditionTests_compareConditions_pairs]
    exact resolve_of_clauseResolves hs hkind (.cases hcond hany' hfirst) o
  case casesDefault =>
    intro _ op ps qs place es fs spot o s hs hkind hcond hany hcases hentries hsame
    cases hsame
    obtain ⟨hany', hfirst⟩ := fixed_comparedCases hany fun p hp =>
      (List.forall₂_same.mp hcases p hp).imp (· rfl) (· rfl)
    have hsecond : resolveDefault bind _ (es.map fun e => (e.1, compareConditions e.2)) = .ok _ :=
      resolveDefault_self_iff.mpr fun value hvalue => by
        rw [lookup_map_values] at hvalue
        obtain ⟨default, hdefault, rfl⟩ := Option.map_eq_some_iff.mp hvalue
        exact DefaultReplaced.self_iff.mp hentries default hdefault rfl
    rw [compareConditions_clause, conditionClause, if_pos hcond]
    simp only [List.map_cons, List.map_nil, conditionTests_compareConditions_pairs,
      conditionTests_compareConditions_options]
    exact resolve_of_clauseResolves hs hkind (.casesDefault hcond hany' hfirst hsecond) o
  case flat =>
    intro _ op xs ys o s hs hkind hplain hcount hoperands ih hsame
    cases hsame
    exact fixed_comparedOperands hs hkind hplain hcount hoperands fun x hx type hfixed =>
      ih x hx type x hfixed rfl

/-! ### Compiled trees -/

/-- What a context binds a name to is fixed: a target of the schema, or without a schema the
name itself, as a reference of the kind that was asked for. -/
theorem bindsFixed_bind {σ : Type} [Lookup σ] (context : Context σ) : BindsFixed context.bind := by
  intro expected name occurrence target h
  rcases Context.bind_cases h with ⟨-, rfl⟩ | ⟨schema, target, -, -, rfl⟩
  · change resolve context.bind expected (.reference (NameKind.ofType expected) name
      occurrence.origin) = _
    exact resolve_reference_eq_ok_iff.mpr ⟨_, h, rfl⟩
  · exact fixed_bound target occurrence.origin

/-- **Compiled trees are fixed.**  In the context that it was compiled in, a compiled tree is
resolved to itself where its mode expects it, and no condition in it is left to compare. -/
theorem compile_fixed {σ : Type} [Lookup σ] {context : Context σ} {source : String} {e : Expr}
    (h : compile context source = .ok e) :
    resolve context.bind context.mode.expected e = .ok e ∧ compareConditions e = e := by
  obtain ⟨tree, bound, -, hresolve, rfl⟩ := compile_eq_ok_iff.mp h
  have hbound : Fixed context.bind context.mode.expected bound :=
    resolve_resolve context.answersNames_bind (bindsFixed_bind context) hresolve
  exact ⟨fixed_compareConditions hbound, compareConditions_compareConditions bound⟩

/-- Filters over a table with a column of truth values and a saved filter. -/
def paidOrders : Context where
  mode := .boolean
  stage := 0
  ownName := none
  schema := some
    { database := ⟨none, none⟩
      stages := [
        { fields := [⟨1, "Paid", none, none, "type/Boolean", false⟩,
            ⟨2, "Total", none, none, "type/Float", false⟩]
          metrics := []
          segments := [⟨3, "Big"⟩] }] }

/-- Comparisons in a test and among the operands of a conjunction, and a saved filter that
stays as it is. -/
theorem compile_fixed_case :
    ∃ e, compile paidOrders "case([Paid], [Big] and contains([Total], \"1\"), [Big])" = .ok e ∧
      e.nodes.countP (·.operator? == some "=") = 2 ∧
      resolve paidOrders.bind paidOrders.mode.expected e = .ok e ∧ compareConditions e = e := by
  obtain ⟨e, he, hcompared⟩ := exists_ok_of_any
    (show (compile paidOrders
      "case([Paid], [Big] and contains([Total], \"1\"), [Big])").toOption.any
        (fun e => e.nodes.countP (·.operator? == some "=") == 2) = true by decide +kernel)
  exact ⟨e, he, beq_iff_eq.mp hcompared, compile_fixed he⟩

end QueryFormula
