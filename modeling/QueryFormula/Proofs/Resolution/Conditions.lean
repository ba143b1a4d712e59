import Mathlib.Data.List.Induction
import QueryFormula.Proofs.Expr.Path
import QueryFormula.Proofs.Resolution.Fixpoint

/-!
# What stands alone as a condition

A column of truth values or a saved filter stands alone where a clause of the catalog declares
a condition, and a column does where it is a test of grouped cases (`IsCondition`).  At any
depth of a tree these nodes are put into a comparison with `true`, and no other node is touched
(`compareConditions_standsAlone`).

Two facts carry this.  A clause whose operands are done compares its own conditions, and what
is further down stays (`at?_conditionClause`).  And operands that are done have the same
conditions among them as before (`isCondition_map`), since a column and a filter stay as they
are until the clause around them is reached.
-/

namespace QueryFormula

open QueryFormula.Expr

/-- A name that is bound to a column of truth values. -/
inductive IsTruthColumn : Expr → Prop
  | field (id : Int64) (o : Option Span) : IsTruthColumn (.bound (.field id "type/Boolean") o)
  | expression (name : String) (o : Option Span) :
      IsTruthColumn (.bound (.expression name "type/Boolean") o)

/-- A column of truth values, or a saved filter. -/
inductive IsBare : Expr → Prop
  | column {x : Expr} (column : IsTruthColumn x) : IsBare x
  | segment (id : Int64) (o : Option Span) : IsBare (.bound (.segment id) o)

/-- From grouped cases the steps lead to a test that is a column of truth values. -/
inductive IsColumnTest : Expr → List Step → Prop
  | test {ps : List (Expr × Expr)} {place : Option Span} {j : Nat} {test value : Expr}
      (there : ps[j]? = some (test, value)) (column : IsTruthColumn test) :
      IsColumnTest (.pairs ps place) [.test j]

/-- From a clause with these operands the steps lead to a condition that stands alone. -/
inductive IsCondition (op : String) (xs : List Expr) : List Step → Prop
  /-- An operand where the catalog declares a condition; options have no position. -/
  | operand {s : Signature} {i : Nat} {x : Expr} (plain : isConditional op = false)
      (signature : signature? op = some s) (there : xs[i]? = some x) (bare : IsBare x)
      (declares : s.parameter? (positionalCount (xs.take i)) = some .boolean) :
      IsCondition op xs [.operand i]
  /-- A test of a conditional.  A saved filter may stand there. -/
  | test {i : Nat} {x : Expr} {steps : List Step} (conditional : isConditional op = true)
      (there : xs[i]? = some x) (column : IsColumnTest x steps) :
      IsCondition op xs (.operand i :: steps)

/-- The steps lead to a condition that stands alone in a clause of the tree. -/
def StandsAlone (e : Expr) (path : List Step) : Prop :=
  ∃ front steps op xs o, path = front ++ steps ∧ e.at? front = some (.clause op xs o) ∧
    IsCondition op xs steps

/-! ### Columns and filters -/

theorem isTruthColumn_iff {x : Expr} : x.isTruthColumn = true ↔ IsTruthColumn x := by
  constructor
  · intro h
    cases x with
    | bound target o =>
        have htype : target.baseType? = some "type/Boolean" := beq_iff_eq.mp h
        cases target with
        | field id baseType =>
            cases htype
            exact .field id o
        | expression name baseType =>
            cases htype
            exact .expression name o
        | metric id => cases htype
        | segment id => cases htype
    | _ => cases h
  · rintro (_ | _) <;> rfl

theorem isBare_iff {x : Expr} : (x.isTruthColumn || x.isSegment) = true ↔ IsBare x := by
  rw [Bool.or_eq_true, isTruthColumn_iff]
  constructor
  · rintro (h | h)
    · exact .column h
    · cases x with
      | bound target o =>
          cases target with
          | segment id => exact .segment id o
          | _ => cases h
      | _ => cases h
  · rintro (h | _)
    · exact .inl h
    · exact .inr rfl

/-- A bare node is a bound name. -/
theorem IsBare.exists_eq_bound {x : Expr} (h : IsBare x) : ∃ target o, x = .bound target o := by
  rcases h with ⟨_ | _⟩ | _ <;> exact ⟨_, _, rfl⟩

/-- Nothing is below a bare node. -/
theorem IsBare.of_at? {x y : Expr} {path : List Step} (h : IsBare x) (hy : x.at? path = some y) :
    path = [] ∧ y = x := by
  obtain ⟨target, o, rfl⟩ := h.exists_eq_bound
  cases path with
  | nil => exact ⟨rfl, (Option.some.inj hy).symm⟩
  | cons step rest => cases hy

theorem IsBare.compareConditions_eq {x : Expr} (h : IsBare x) : compareConditions x = x := by
  obtain ⟨target, o, rfl⟩ := h.exists_eq_bound
  exact bottomUp_bound conditionClause target o

theorem isTruthColumn_compareConditions {x : Expr} :
    IsTruthColumn (compareConditions x) ↔ IsTruthColumn x := by
  rw [← isTruthColumn_iff, ← isTruthColumn_iff]
  exact Eq.congr_left (rearranges_conditionClause.keeps Expr.isTruthColumn
    (fun _ _ _ _ => rfl) (fun _ _ _ => rfl) (fun _ _ _ => rfl) x)

theorem isBare_compareConditions {x : Expr} : IsBare (compareConditions x) ↔ IsBare x := by
  rw [← isBare_iff, ← isBare_iff]
  exact Eq.congr_left (rearranges_conditionClause.keeps
    (fun x => x.isTruthColumn || x.isSegment)
    (fun _ _ _ _ => rfl) (fun _ _ _ => rfl) (fun _ _ _ => rfl) x)

/-- Grouped cases after the walk were grouped cases before it. -/
theorem compareConditions_eq_pairs {x : Expr} {qs : List (Expr × Expr)} {place : Option Span}
    (h : compareConditions x = .pairs qs place) :
    ∃ ps, x = .pairs ps place ∧
      qs = ps.map fun p => (compareConditions p.1, compareConditions p.2) := by
  have hkind : (compareConditions x).isPairs = x.isPairs := rearranges_conditionClause.isPairs x
  rw [h] at hkind
  cases x with
  | pairs ps o =>
      rw [compareConditions, bottomUp_pairs] at h
      cases h
      exact ⟨ps, rfl, rfl⟩
  | _ => cases hkind

/-! ### One clause -/

section Clause

variable {op : String} {o : Option Span}

/-- What becomes of each operand, which is counted without the options in front of it. -/
theorem getElem?_conditionOperands (s : Signature) (position i : Nat) (xs : List Expr) :
    (conditionOperands s position xs)[i]? = xs[i]?.map fun x =>
      if (x.isTruthColumn || x.isSegment) &&
          s.parameter? (position + positionalCount (xs.take i)) == some .boolean
      then x.equalsTrue else x := by
  induction xs generalizing position i with
  | nil => rfl
  | cons x xs ih =>
      rw [conditionOperands]
      by_cases hoptions : x.isOptions = true
      · rw [if_pos hoptions]
        cases i with
        | zero =>
            obtain ⟨es, o, rfl⟩ : ∃ es o, x = .options es o := by
              cases x with
              | options es o => exact ⟨es, o, rfl⟩
              | _ => cases hoptions
            rfl
        | succ i =>
            rw [List.take_succ_cons, positionalCount_options hoptions]
            exact ih position i
      · rw [if_neg hoptions]
        cases i with
        | zero => rfl
        | succ i =>
            rw [List.take_succ_cons, add_positionalCount_value (Bool.eq_false_iff.mpr hoptions)]
            exact ih (position + 1) i

/-- A node is kept, or its tests are compared. -/
def Kept (y z : Expr) : Prop :=
  z = y ∨ z = conditionTests y

theorem face_conditionTests (e : Expr) : (conditionTests e).face = e.face := by
  cases e with
  | pairs ps o => rw [conditionTests, face, face, List.length_map]
  | _ => rfl

theorem Kept.face {y z : Expr} (h : Kept y z) : z.face = y.face := by
  rcases h with rfl | rfl
  · rfl
  · exact face_conditionTests y

/-- Of grouped cases the columns among the tests are compared, and nothing else. -/
theorem at?_conditionTests {e y : Expr} {path : List Step} (h : e.at? path = some y) :
    (IsColumnTest e path → (conditionTests e).at? path = some y.equalsTrue) ∧
      (¬IsColumnTest e path → ∃ z, (conditionTests e).at? path = some z ∧ Kept y z) := by
  cases e with
  | pairs ps place =>
      cases path with
      | nil =>
          cases h
          refine ⟨fun htest => ?_, fun _ => ⟨_, rfl, .inr rfl⟩⟩
          cases htest
      | cons step rest =>
          obtain ⟨c, hc, hrest⟩ := Option.bind_eq_some_iff.mp h
          cases step with
          | test j =>
              obtain ⟨⟨test, value⟩, hcase, rfl⟩ := Option.map_eq_some_iff.mp hc
              have hchild : (conditionTests (.pairs ps place)).at? (.test j :: rest) =
                  (conditionTest test).at? rest := by
                simp [conditionTests, child?, hcase]
              rw [hchild]
              by_cases hcolumn : IsTruthColumn test
              · obtain ⟨rfl, rfl⟩ := (IsBare.column hcolumn).of_at? hrest
                have hcompared : conditionTest y = y.equalsTrue :=
                  if_pos (isTruthColumn_iff.mpr hcolumn)
                rw [hcompared]
                exact ⟨fun _ => rfl, fun hnot => absurd (.test hcase hcolumn) hnot⟩
              · have hkept : conditionTest test = test :=
                  if_neg fun h => hcolumn (isTruthColumn_iff.mp h)
                rw [hkept]
                refine ⟨fun htest => ?_, fun _ => ⟨y, hrest, .inl rfl⟩⟩
                cases htest with
                | test hthere htruth =>
                    cases hthere.symm.trans hcase
                    exact absurd htruth hcolumn
          | value j =>
              obtain ⟨⟨test, value⟩, hcase, rfl⟩ := Option.map_eq_some_iff.mp hc
              have hchild : (conditionTests (.pairs ps place)).at? (.value j :: rest) =
                  value.at? rest := by
                simp [conditionTests, child?, hcase]
              rw [hchild]
              refine ⟨fun htest => ?_, fun _ => ⟨y, hrest, .inl rfl⟩⟩
              cases htest
          | operand i => cases hc
          | entry key => cases hc
  | _ =>
      refine ⟨fun htest => ?_, fun _ => ⟨y, h, .inl rfl⟩⟩
      cases htest

section Compares

variable {ys : List Expr} {i : Nat} {rest : List Step} {c y : Expr}

theorem at?_conditionClause_conditional (hcond : isConditional op = true) (hc : ys[i]? = some c)
    (hy : c.at? rest = some y) :
    (IsCondition op ys (.operand i :: rest) →
      (conditionClause op ys o).at? (.operand i :: rest) = some y.equalsTrue) ∧
    (¬IsCondition op ys (.operand i :: rest) →
      ∃ z, (conditionClause op ys o).at? (.operand i :: rest) = some z ∧ Kept y z) := by
  have hchild : (conditionClause op ys o).at? (.operand i :: rest) =
      (conditionTests c).at? rest := by
    simp [conditionClause, hcond, child?, hc]
  have hiff : IsCondition op ys (.operand i :: rest) ↔ IsColumnTest c rest := by
    constructor
    · rintro (⟨hplain⟩ | ⟨-, hthere, htest⟩)
      · cases hplain.symm.trans hcond
      · cases hthere.symm.trans hc
        exact htest
    · exact .test hcond hc
  rw [hchild, hiff]
  exact at?_conditionTests hy

theorem at?_conditionClause_plain {s : Signature} (hcond : isConditional op = false)
    (hs : signature? op = some s) (hc : ys[i]? = some c) (hy : c.at? rest = some y) :
    (IsCondition op ys (.operand i :: rest) →
      (conditionClause op ys o).at? (.operand i :: rest) = some y.equalsTrue) ∧
    (¬IsCondition op ys (.operand i :: rest) →
      ∃ z, (conditionClause op ys o).at? (.operand i :: rest) = some z ∧ Kept y z) := by
  have hchild : (conditionClause op ys o).at? (.operand i :: rest) =
      (if (c.isTruthColumn || c.isSegment) &&
          s.parameter? (positionalCount (ys.take i)) == some .boolean
        then c.equalsTrue else c).at? rest := by
    rw [conditionClause, if_neg (Bool.eq_false_iff.mp hcond), hs, at?_cons]
    simp only [child?, getElem?_conditionOperands, hc, Nat.zero_add, Option.map_some,
      Option.bind_some]
  rw [hchild]
  by_cases hcompared : IsBare c ∧ s.parameter? (positionalCount (ys.take i)) = some .boolean
  · obtain ⟨hbare, hdeclares⟩ := hcompared
    obtain ⟨rfl, rfl⟩ := hbare.of_at? hy
    rw [if_pos (by rw [isBare_iff.mpr hbare, hdeclares]; rfl)]
    exact ⟨fun _ => rfl, fun hnot => absurd (.operand hcond hs hc hbare hdeclares) hnot⟩
  · rw [if_neg fun h => hcompared
      ((Bool.and_eq_true_iff.mp h).imp isBare_iff.mp beq_iff_eq.mp)]
    refine ⟨?_, fun _ => ⟨y, hy, .inl rfl⟩⟩
    rintro (⟨-, hsignature, hthere, hbare, hdeclares⟩ | ⟨hconditional⟩)
    · cases hsignature.symm.trans hs
      cases hthere.symm.trans hc
      exact absurd ⟨hbare, hdeclares⟩ hcompared
    · cases hconditional.symm.trans hcond

/-- **What a clause compares** are its own conditions; further down every node is kept. -/
theorem at?_conditionClause {step : Step}
    (h : (Expr.clause op ys o).at? (step :: rest) = some y) :
    (IsCondition op ys (step :: rest) →
      (conditionClause op ys o).at? (step :: rest) = some y.equalsTrue) ∧
    (¬IsCondition op ys (step :: rest) →
      ∃ z, (conditionClause op ys o).at? (step :: rest) = some z ∧ Kept y z) := by
  obtain ⟨c, hc, hy⟩ := Option.bind_eq_some_iff.mp h
  cases step with
  | operand i =>
      replace hc : ys[i]? = some c := hc
      by_cases hcond : isConditional op = true
      · exact at?_conditionClause_conditional hcond hc hy
      · cases hs : signature? op with
        | some s => exact at?_conditionClause_plain (Bool.eq_false_iff.mpr hcond) hs hc hy
        | none =>
            -- A clause that is not in the catalog declares nothing.
            rw [conditionClause, if_neg hcond, hs]
            refine ⟨?_, fun _ => ⟨y, h, .inl rfl⟩⟩
            rintro (⟨-, hsignature⟩ | ⟨hconditional⟩)
            · cases hsignature.symm.trans hs
            · exact absurd hconditional hcond
  | _ => cases hc

end Compares

/-! ### Operands that are done -/

theorem positionalCount_take_map (xs : List Expr) (i : Nat) :
    positionalCount ((xs.map compareConditions).take i) = positionalCount (xs.take i) := by
  rw [← List.map_take]
  exact (counts_of_map_isOptions (map_isOptions_compareConditions (xs.take i))).1

theorem isColumnTest_compareConditions {x : Expr} {steps : List Step} :
    IsColumnTest (compareConditions x) steps ↔ IsColumnTest x steps := by
  constructor
  · intro h
    generalize hx : compareConditions x = r at h
    cases h with
    | test hthere hcolumn =>
        obtain ⟨ps, rfl, rfl⟩ := compareConditions_eq_pairs hx
        rw [List.getElem?_map] at hthere
        obtain ⟨p, hp, hcase⟩ := Option.map_eq_some_iff.mp hthere
        cases hcase
        exact .test hp (isTruthColumn_compareConditions.mp hcolumn)
  · rintro ⟨hthere, hcolumn⟩
    rw [compareConditions, bottomUp_pairs]
    exact .test (by rw [List.getElem?_map, hthere]; rfl)
      (isTruthColumn_compareConditions.mpr hcolumn)

/-- A clause has the same conditions before and after its operands are done. -/
theorem isCondition_map {xs : List Expr} {path : List Step} :
    IsCondition op (xs.map compareConditions) path ↔ IsCondition op xs path := by
  constructor
  · rintro (⟨hplain, hs, hthere, hbare, hdeclares⟩ | ⟨hcond, hthere, htest⟩)
    · rw [positionalCount_take_map] at hdeclares
      rw [List.getElem?_map] at hthere
      obtain ⟨x, hx, rfl⟩ := Option.map_eq_some_iff.mp hthere
      exact .operand hplain hs hx (isBare_compareConditions.mp hbare) hdeclares
    · rw [List.getElem?_map] at hthere
      obtain ⟨x, hx, rfl⟩ := Option.map_eq_some_iff.mp hthere
      exact .test hcond hx (isColumnTest_compareConditions.mp htest)
  · rintro (⟨hplain, hs, hthere, hbare, hdeclares⟩ | ⟨hcond, hthere, htest⟩)
    · rw [← positionalCount_take_map] at hdeclares
      exact .operand hplain hs (by rw [List.getElem?_map, hthere]; rfl)
        (isBare_compareConditions.mpr hbare) hdeclares
    · exact .test hcond (by rw [List.getElem?_map, hthere]; rfl)
        (isColumnTest_compareConditions.mpr htest)

/-- A condition of the clause stands in it as before, once the operands are done. -/
theorem IsCondition.at?_map {xs : List Expr} {path : List Step} {x : Expr}
    (h : IsCondition op xs path) (hx : (Expr.clause op xs o).at? path = some x) :
    (Expr.clause op (xs.map compareConditions) o).at? path = some x := by
  cases h with
  | operand _ _ hthere hbare =>
      simp only [at?_cons, child?, hthere, Option.bind_some, at?_nil, Option.some.injEq] at hx
      subst hx
      simp [child?, hthere, hbare.compareConditions_eq]
  | test _ hthere htest =>
      cases htest with
      | test hcase hcolumn =>
          simp only [at?_cons, child?, hthere, hcase, Option.map_some, Option.bind_some, at?_nil,
            Option.some.injEq] at hx
          subst hx
          have hdone := (IsBare.column hcolumn).compareConditions_eq
          rw [compareConditions] at hdone
          simp [child?, hthere, compareConditions, hcase, hdone]

end Clause

/-! ### The tree -/

/-- The root is no condition that stands alone. -/
theorem not_standsAlone_nil (e : Expr) : ¬StandsAlone e [] := by
  rintro ⟨front, steps, op, xs, o, hpath, -, hcond⟩
  obtain ⟨-, rfl⟩ := List.append_eq_nil_iff.mp hpath.symm
  cases hcond

/-- What stands alone is a condition of the root, or stands alone below it. -/
theorem standsAlone_cons_iff {e : Expr} {step : Step} {rest : List Step} :
    StandsAlone e (step :: rest) ↔
      (∃ op xs o, e = .clause op xs o ∧ IsCondition op xs (step :: rest)) ∨
        ∃ c, e.child? step = some c ∧ StandsAlone c rest := by
  constructor
  · rintro ⟨front, steps, op, xs, o, hpath, hclause, hcond⟩
    cases front with
    | nil =>
        cases hclause
        rw [List.nil_append] at hpath
        exact .inl ⟨op, xs, o, rfl, hpath ▸ hcond⟩
    | cons first front =>
        obtain ⟨rfl, rfl⟩ := List.cons_eq_cons.mp hpath
        obtain ⟨c, hc, hbelow⟩ := Option.bind_eq_some_iff.mp hclause
        exact .inr ⟨c, hc, front, steps, op, xs, o, rfl, hbelow, hcond⟩
  · rintro (⟨op, xs, o, rfl, hcond⟩ | ⟨c, hc, front, steps, op, xs, o, rfl, hclause, hcond⟩)
    · exact ⟨[], step :: rest, op, xs, o, rfl, rfl, hcond⟩
    · refine ⟨step :: front, steps, op, xs, o, rfl, ?_, hcond⟩
      rw [at?_cons, hc]
      exact hclause

/-- Apart from the clauses, nodes below the walked tree are the walked nodes. -/
theorem child?_compareConditions {e : Expr} (hclause : e.operator? = none) (step : Step) :
    (compareConditions e).child? step = (e.child? step).map compareConditions := by
  cases e with
  | literal v o => rw [compareConditions, bottomUp_literal]; rfl
  | reference k n o => rw [compareConditions, bottomUp_reference]; rfl
  | bound t o => rw [compareConditions, bottomUp_bound]; rfl
  | clause op xs o => cases hclause
  | options es o =>
      rw [compareConditions, bottomUp_options]
      cases step with
      | entry key => exact lookup_map_values _ key es
      | _ => rfl
  | pairs ps o =>
      rw [compareConditions, bottomUp_pairs]
      cases step with
      | test j => simp [child?, Function.comp_def]
      | value j => simp [child?, Function.comp_def]
      | _ => rfl

theorem length_conditionOperands (s : Signature) (position : Nat) (xs : List Expr) :
    (conditionOperands s position xs).length = xs.length := by
  rw [← List.length_map isOptions, map_isOptions_conditionOperands, List.length_map]

theorem face_conditionClause (op : String) (ys : List Expr) (o : Option Span) :
    (conditionClause op ys o).face = (Expr.clause op ys o).face := by
  unfold conditionClause
  split
  · rw [face, face, List.length_map]
  · split
    · rw [face, face, length_conditionOperands]
    · rfl

/-- The walk changes no node into one of another kind. -/
theorem face_compareConditions (e : Expr) : (compareConditions e).face = e.face := by
  cases e with
  | literal v o => rw [compareConditions, bottomUp_literal]
  | reference k n o => rw [compareConditions, bottomUp_reference]
  | bound t o => rw [compareConditions, bottomUp_bound]
  | clause op xs o =>
      rw [compareConditions_clause, face_conditionClause, face, face, List.length_map]
  | options es o => simp [compareConditions, face, Function.comp_def]
  | pairs ps o => rw [compareConditions, bottomUp_pairs, face, face, List.length_map]

/-- Where the root has no condition, what stands alone does so below it. -/
theorem standsAlone_below_iff {e c : Expr} {step : Step} {rest : List Step}
    (hc : e.child? step = some c)
    (hroot : ∀ op xs o, e = .clause op xs o → ¬IsCondition op xs (step :: rest)) :
    StandsAlone e (step :: rest) ↔ StandsAlone c rest := by
  rw [standsAlone_cons_iff]
  constructor
  · rintro (⟨op, xs, o, he, hcond⟩ | ⟨d, hd, hbelow⟩)
    · exact absurd hcond (hroot op xs o he)
    · cases hd.symm.trans hc
      exact hbelow
  · exact fun hbelow => .inr ⟨c, hc, hbelow⟩

/-- A condition of a walked clause is compared. -/
theorem IsCondition.at?_compareConditions {op : String} {xs : List Expr} {o : Option Span}
    {step : Step} {rest : List Step} {x : Expr} (h : IsCondition op xs (step :: rest))
    (hx : (Expr.clause op xs o).at? (step :: rest) = some x) :
    (compareConditions (.clause op xs o)).at? (step :: rest) = some x.equalsTrue := by
  rw [compareConditions_clause]
  exact (at?_conditionClause (h.at?_map hx)).1 (isCondition_map.mpr h)

/-- What the walk leaves below a clause is kept, apart from the clause's own conditions. -/
theorem at?_compareConditions_clause {op : String} {xs : List Expr} {o : Option Span}
    {step : Step} {rest : List Step} {c y : Expr}
    (hcond : ¬IsCondition op xs (step :: rest)) (hc : (Expr.clause op xs o).child? step = some c)
    (hy : (compareConditions c).at? rest = some y) :
    ∃ z, (compareConditions (.clause op xs o)).at? (step :: rest) = some z ∧ Kept y z := by
  have hwalked : (Expr.clause op (xs.map compareConditions) o).at? (step :: rest) = some y := by
    cases step with
    | operand i =>
        replace hc : xs[i]? = some c := hc
        simpa [child?, hc] using hy
    | _ => cases hc
  rw [compareConditions_clause]
  exact (at?_conditionClause hwalked).2 fun h => hcond (isCondition_map.mp h)

/-- **Every node** that stands alone is compared, and every other shows the same. -/
theorem at?_compareConditions {e x : Expr} {path : List Step} (h : e.at? path = some x) :
    (StandsAlone e path → (compareConditions e).at? path = some x.equalsTrue) ∧
      (¬StandsAlone e path →
        ∃ z, (compareConditions e).at? path = some z ∧ z.face = x.face) := by
  induction path generalizing e with
  | nil =>
      cases h
      exact ⟨fun halone => absurd halone (not_standsAlone_nil x),
        fun _ => ⟨_, rfl, face_compareConditions x⟩⟩
  | cons step rest ih =>
      obtain ⟨c, hc, hrest⟩ := Option.bind_eq_some_iff.mp h
      obtain ⟨halone, hother⟩ := ih hrest
      by_cases hclause : e.operator? = none
      · have hwalk : (compareConditions e).at? (step :: rest) = (compareConditions c).at? rest := by
          rw [at?_cons, child?_compareConditions hclause, hc]
          rfl
        have hroot : ∀ op xs o, e = .clause op xs o → ¬IsCondition op xs (step :: rest) := by
          rintro op xs o rfl
          cases hclause
        rw [hwalk, standsAlone_below_iff hc hroot]
        exact ⟨halone, hother⟩
      · obtain ⟨op, xs, o, rfl⟩ : ∃ op xs o, e = .clause op xs o := by
          cases e with
          | clause op xs o => exact ⟨op, xs, o, rfl⟩
          | _ => exact absurd rfl hclause
        by_cases hcond : IsCondition op xs (step :: rest)
        · have hroot : StandsAlone (.clause op xs o) (step :: rest) :=
            standsAlone_cons_iff.mpr (.inl ⟨op, xs, o, rfl, hcond⟩)
          exact ⟨fun _ => hcond.at?_compareConditions h, fun hnot => absurd hroot hnot⟩
        · rw [standsAlone_below_iff hc fun _ _ _ he => by cases he; exact hcond]
          refine ⟨fun hbelow => ?_, fun hnot => ?_⟩
          · -- A comparison has no tests, so it is kept as it is.
            obtain ⟨z, hz, rfl | rfl⟩ := at?_compareConditions_clause hcond hc (halone hbelow)
            · exact hz
            · exact hz
          · obtain ⟨y, hy, hface⟩ := hother hnot
            obtain ⟨z, hz, hkept⟩ := at?_compareConditions_clause hcond hc hy
            exact ⟨z, hz, hkept.face.trans hface⟩

/-- What the walk adds is part of a comparison. -/
theorem exists_standsAlone_of_added {e y : Expr} {path : List Step}
    (hy : (compareConditions e).at? path = some y) (h : e.at? path = none) :
    ∃ front back, path = front ++ back ∧ StandsAlone e front := by
  induction path using List.reverseRecOn generalizing y with
  | nil => cases h
  | append_singleton front step ih =>
      rw [at?_append] at h hy
      obtain ⟨z, hz, hstep⟩ := Option.bind_eq_some_iff.mp hy
      cases hx : e.at? front with
      | none =>
          obtain ⟨before, back, rfl, halone⟩ := ih hz hx
          exact ⟨before, back ++ [step], List.append_assoc .., halone⟩
      | some x =>
          by_cases halone : StandsAlone e front
          · exact ⟨front, [step], rfl, halone⟩
          · obtain ⟨z', hz', hface⟩ := (at?_compareConditions hx).2 halone
            cases hz'.symm.trans hz
            rw [hx] at h
            -- What shows the same has nodes below it at the same places.
            have hbelow : x.child? step = none := by simpa using h
            have hnone : z.child? step = none := by
              rwa [child?_eq_none_iff, hface, ← child?_eq_none_iff]
            rw [at?_cons, hnone] at hstep
            cases hstep

/-- **Exactly what stands alone is compared** with `true`, where it stands.  Every other node of
the tree shows the same as before, its origin and how many nodes are below it included, and
nothing is added but in the comparisons.  A second walk finds nothing to compare. -/
theorem compareConditions_standsAlone (e : Expr) :
    (∀ path x, e.at? path = some x →
      (StandsAlone e path → (compareConditions e).at? path =
        some (.clause "=" [x, .literal (.boolean true) none] x.origin)) ∧
      (¬StandsAlone e path → ((compareConditions e).at? path).map face = some x.face)) ∧
    (∀ path y, (compareConditions e).at? path = some y → e.at? path = none →
      ∃ front back, path = front ++ back ∧ StandsAlone e front) ∧
    compareConditions (compareConditions e) = compareConditions e := by
  refine ⟨fun path x hx => ⟨(at?_compareConditions hx).1, fun hother => ?_⟩,
    fun path y => exists_standsAlone_of_added, compareConditions_compareConditions e⟩
  obtain ⟨z, hz, hface⟩ := (at?_compareConditions hx).2 hother
  rw [hz, Option.map_some, hface]

/-- Two cases: a column with a sum over the rows of a saved filter, and that filter itself. -/
def summedWhere : Expr :=
  .clause "case" [
    .pairs [
      (.bound (.field 4 "type/Boolean") (some ⟨5, 11⟩),
        .clause "sum-where" [.options [] none, .bound (.field 7 "type/Float") none,
          .bound (.segment 20) none] none),
      (.bound (.segment 20) none, .literal (.text "other") none)] none] none

/-- The column in the first test is compared and the filter in the second is not.  The filter
among the operands of the sum is: it is the second of them, counted without the options. -/
theorem compareConditions_standsAlone_summedWhere :
    StandsAlone summedWhere [.operand 0, .test 0] ∧
    (compareConditions summedWhere).at? [.operand 0, .test 0] =
      some (.clause "=" [.bound (.field 4 "type/Boolean") (some ⟨5, 11⟩),
        .literal (.boolean true) none] (some ⟨5, 11⟩)) ∧
    StandsAlone summedWhere [.operand 0, .value 0, .operand 2] ∧
    (compareConditions summedWhere).at? [.operand 0, .value 0, .operand 2] =
      some (.clause "=" [.bound (.segment 20) none, .literal (.boolean true) none] none) ∧
    ¬StandsAlone summedWhere [.operand 0, .test 1] ∧
    ((compareConditions summedWhere).at? [.operand 0, .test 1]).map face =
      some (.bound (.segment 20), none) := by
  obtain ⟨hnodes, -, -⟩ := compareConditions_standsAlone summedWhere
  have hcolumn : StandsAlone summedWhere [.operand 0, .test 0] :=
    ⟨[], _, _, _, _, rfl, rfl, .test rfl rfl (.test rfl (.field 4 _))⟩
  have hfilter : StandsAlone summedWhere [.operand 0, .value 0, .operand 2] := by
    obtain ⟨s, hs, hsecond⟩ : ∃ s, signature? "sum-where" = some s ∧
        s.parameter? 1 = some .boolean := ⟨_, rfl, rfl⟩
    exact ⟨[.operand 0, .value 0], _, _, _, _, rfl, rfl,
      .operand rfl hs rfl (.segment 20 none) hsecond⟩
  have htest : ¬StandsAlone summedWhere [.operand 0, .test 1] := by
    intro halone
    rcases standsAlone_cons_iff.mp halone with ⟨_, _, _, heq, hcond⟩ | ⟨cases, hcases, hbelow⟩
    · cases heq
      rcases hcond with _ | ⟨-, hthere, hcompared⟩
      cases hthere
      rcases hcompared with ⟨hcase, htruth⟩
      cases hcase
      cases htruth
    · cases hcases
      rcases standsAlone_cons_iff.mp hbelow with ⟨_, _, _, heq, -⟩ | ⟨test, -, hroot⟩
      · cases heq
      · exact not_standsAlone_nil test hroot
  exact ⟨hcolumn, (hnodes _ _ rfl).1 hcolumn, hfilter, (hnodes _ _ rfl).1 hfilter, htest,
    (hnodes _ (.bound (.segment 20) none) rfl).2 htest⟩

end QueryFormula
