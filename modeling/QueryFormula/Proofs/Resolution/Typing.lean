import QueryFormula.Proofs.NormalForm.Names
import QueryFormula.Proofs.Resolution.Checked

/-!
# The types that places expect

Checking walks from a node to those below it: to the operands that the catalog
declares, and to the tests, the values and the default of grouped cases.  Each
such step (`Expr.Checks`) comes with what becomes of the expected type on the way
down.

A tree is typed if at every node that is reached in this way the node fits the type
expected there (`Expr.Typed`).  Resolution makes typed trees (`typed_of_resolve`).
-/

namespace QueryFormula

open QueryFormula.Expr

/-- The target is a saved metric. -/
def BoundRef.isMetric : BoundRef → Bool
  | metric _ => true
  | _ => false

namespace Expr

/-- Checking goes on from the first node to the second, where `demand` gives the type
that is expected there for the one expected here. -/
inductive Checks : (demand : ValueType → ValueType) → Expr → Expr → Prop
  /-- An operand at a position, counted without options, with a declared type. -/
  | operand {op : String} {before : List Expr} {x : Expr} {after : List Expr} {o : Option Span}
      {s : Signature} {declared : ValueType} (signature : signature? op = some s)
      (value : x.isOptions = false)
      (declares : s.parameter? (positionalCount before) = some declared) :
      Checks (operandType s declared) (clause op (before ++ x :: after) o) x
  | test {op : String} {ps : List (Expr × Expr)} {place : Option Span} {more : List Expr}
      {o : Option Span} {p : Expr × Expr} (conditional : isConditional op = true)
      (grouped : isGrouped (pairs ps place :: more) = true) (mem : p ∈ ps) :
      Checks (fun _ => .boolean) (clause op (pairs ps place :: more) o) p.1
  | value {op : String} {ps : List (Expr × Expr)} {place : Option Span} {more : List Expr}
      {o : Option Span} {p : Expr × Expr} (conditional : isConditional op = true)
      (grouped : isGrouped (pairs ps place :: more) = true) (mem : p ∈ ps) :
      Checks id (clause op (pairs ps place :: more) o) p.2
  | default {op : String} {ps : List (Expr × Expr)} {place : Option Span}
      {es : List (String × Expr)} {spot o : Option Span} {e : Expr}
      (conditional : isConditional op = true) (entry : es.lookup "default" = some e) :
      Checks id (clause op [pairs ps place, options es spot] o) e

theorem isGrouped_pairs (ps : List (Expr × Expr)) (place : Option Span) (more : List Expr) :
    isGrouped (pairs ps place :: more) = true ↔
      more = [] ∨ ∃ es spot, more = [options es spot] := by
  constructor
  · intro h
    unfold isGrouped at h
    split at h
    · rename_i hshape
      exact .inl (List.cons_eq_cons.mp hshape).2
    · rename_i hshape
      exact .inr ⟨_, _, (List.cons_eq_cons.mp hshape).2⟩
    · cases h
  · rintro (rfl | ⟨es, spot, rfl⟩) <;> rfl

/-- Where checking goes on from a clause: to an operand with a declared type, or from a
conditional with grouped cases into these. -/
theorem checks_clause {demand : ValueType → ValueType} {op : String} {xs : List Expr}
    {o : Option Span} {x : Expr} (h : Checks demand (clause op xs o) x) :
    (∃ before after s declared, xs = before ++ x :: after ∧ signature? op = some s ∧
      x.isOptions = false ∧ s.parameter? (positionalCount before) = some declared ∧
      demand = operandType s declared) ∨
    (isConditional op = true ∧ ∃ ps place more, xs = pairs ps place :: more ∧
      isGrouped (pairs ps place :: more) = true ∧
      ((∃ p ∈ ps, x = p.1 ∧ demand = fun _ => .boolean) ∨ (∃ p ∈ ps, x = p.2 ∧ demand = id) ∨
        ∃ es spot, more = [options es spot] ∧ es.lookup "default" = some x ∧ demand = id)) := by
  generalize hclause : clause op xs o = e at h
  cases h with
  | operand hs hvalue hdeclares =>
      obtain ⟨rfl, rfl, rfl⟩ := clause.inj hclause
      exact .inl ⟨_, _, _, _, rfl, hs, hvalue, hdeclares, rfl⟩
  | test hcond hgrouped hmem =>
      obtain ⟨rfl, rfl, rfl⟩ := clause.inj hclause
      exact .inr ⟨hcond, _, _, _, rfl, hgrouped, .inl ⟨_, hmem, rfl, rfl⟩⟩
  | value hcond hgrouped hmem =>
      obtain ⟨rfl, rfl, rfl⟩ := clause.inj hclause
      exact .inr ⟨hcond, _, _, _, rfl, hgrouped, .inr (.inl ⟨_, hmem, rfl, rfl⟩)⟩
  | default hcond hentry =>
      obtain ⟨rfl, rfl, rfl⟩ := clause.inj hclause
      exact .inr ⟨hcond, _, _, _, rfl, rfl, .inr (.inr ⟨_, _, rfl, hentry, rfl⟩)⟩

/-- Where checking goes on from a clause that is no conditional. -/
theorem checks_operand {demand : ValueType → ValueType} {op : String} {xs : List Expr}
    {o : Option Span} {x : Expr} (hcond : isConditional op = false)
    (h : Checks demand (clause op xs o) x) :
    ∃ before after s declared, xs = before ++ x :: after ∧ signature? op = some s ∧
      x.isOptions = false ∧ s.parameter? (positionalCount before) = some declared ∧
      demand = operandType s declared := by
  rcases checks_clause h with hoperand | ⟨hcond', -⟩
  · exact hoperand
  · cases hcond.symm.trans hcond'

/-- The node itself is what may stand where a type is expected. -/
def Fits (expected : ValueType) : Expr → Prop
  | clause op _ _ => ∃ s, signature? op = some s ∧ expected.accepts s.kind = true
  | reference kind _ _ => kind = NameKind.ofType expected
  | bound target _ => target.isMetric = true ↔ NameKind.ofType expected = .metric
  | _ => True

/-- The node fits the expected type, and so does every node that checking goes on to. -/
inductive Typed : ValueType → Expr → Prop
  | intro {expected : ValueType} {e : Expr} (fits : Fits expected e)
      (below : ∀ demand x, Checks demand e x → Typed (demand expected) x) : Typed expected e

variable {expected : ValueType}

theorem Typed.fits {e : Expr} (h : Typed expected e) : Fits expected e := by
  cases h with
  | intro hfits _ => exact hfits

theorem Typed.of_checks {e x : Expr} {demand : ValueType → ValueType} (h : Typed expected e)
    (hx : Checks demand e x) : Typed (demand expected) x := by
  cases h with
  | intro _ hbelow => exact hbelow demand x hx

theorem typed_literal (v : Literal) (o : Option Span) : Typed expected (literal v o) :=
  .intro trivial fun _ _ h => by cases h

theorem typed_options (es : List (String × Expr)) (o : Option Span) :
    Typed expected (options es o) :=
  .intro trivial fun _ _ h => by cases h

theorem typed_pairs (ps : List (Expr × Expr)) (o : Option Span) :
    Typed expected (pairs ps o) :=
  .intro trivial fun _ _ h => by cases h

theorem typed_reference {kind : NameKind} {name : String} {o : Option Span}
    (h : kind = NameKind.ofType expected) : Typed expected (reference kind name o) :=
  .intro h fun _ _ hx => by cases hx

theorem typed_bound {target : BoundRef} {o : Option Span}
    (h : target.isMetric = true ↔ NameKind.ofType expected = .metric) :
    Typed expected (bound target o) :=
  .intro h fun _ _ hx => by cases hx

/-- Grouped cases, with a default or without, are typed if tests are conditions and
values fit where the conditional stands. -/
theorem typed_cases {op : String} {ps : List (Expr × Expr)} {place o : Option Span}
    {more : List Expr} (fits : Fits expected (clause op (pairs ps place :: more) o))
    (hcases : ∀ p ∈ ps, Typed .boolean p.1 ∧ Typed expected p.2)
    (hmore : more = [] ∨ ∃ es spot, more = [options es spot] ∧
      ∀ e, es.lookup "default" = some e → Typed expected e) :
    Typed expected (clause op (pairs ps place :: more) o) := by
  refine .intro fits fun demand x hx => ?_
  rcases checks_clause hx with ⟨before, after, s, declared, hxs, -, hvalue, -⟩ |
    ⟨-, ps', place', more', hxs, -, ⟨p, hp, rfl, rfl⟩ | ⟨p, hp, rfl, rfl⟩ |
      ⟨es, spot, rfl, hentry, rfl⟩⟩
  · -- of the operands only the groups themselves are no options
    have hmem : x ∈ pairs ps place :: more := by
      rw [hxs]
      exact List.mem_append_right before List.mem_cons_self
    cases hmem with
    | head => exact typed_pairs ps place
    | tail _ hmem =>
        rcases hmore with rfl | ⟨es, spot, rfl, -⟩
        · cases hmem
        · cases List.mem_singleton.mp hmem
          cases hvalue
  · cases hxs
    exact (hcases p hp).1
  · cases hxs
    exact (hcases p hp).2
  · cases hxs
    rcases hmore with hmore | ⟨es', spot', hmore, hdefault⟩
    · cases hmore
    · cases hmore
      exact hdefault x hentry

end Expr

/-! ### Resolution makes typed trees -/

/-- A binder answers a name with a reference of the kind that is asked for, or with a
target that is a saved metric just when one is asked for. -/
def AnswersKind (bind : Binder (Except ResolutionError)) : Prop :=
  ∀ kind name occurrence r, bind kind name occurrence = .ok r →
    (∃ place, r = .reference kind name place) ∨
      ∃ target place, r = .bound target place ∧ (target.isMetric = true ↔ kind = .metric)

variable {bind : Binder (Except ResolutionError)} {expected : ValueType}

theorem AnswersKind.answersNames (h : AnswersKind bind) : AnswersNames bind := by
  intro kind name occurrence r hr
  rcases h kind name occurrence r hr with ⟨place, rfl⟩ | ⟨target, place, rfl, -⟩
  · exact .inl ⟨kind, name, place, rfl⟩
  · exact .inr ⟨target, place, rfl⟩

theorem typed_of_answersKind (hbind : AnswersKind bind) {k : NameKind} {name : String}
    {o : Option Span} {r : Expr} (h : bind (NameKind.ofType expected) name ⟨k, o⟩ = .ok r) :
    Typed expected (r.adoptOrigin o) := by
  rcases hbind _ _ _ _ h with ⟨place, rfl⟩ | ⟨target, place, rfl, htarget⟩
  · cases place <;> exact typed_reference rfl
  · cases place <;> exact typed_bound htarget

/-- An operand with a declared type was resolved at the type that its place demands. -/
theorem OperandsResolve.exists_operand (hbind : AnswersNames bind) {s : Signature}
    {position : Nat} {xs ys : List Expr} (h : OperandsResolve bind s expected position xs ys)
    {before after : List Expr} {y : Expr} {declared : ValueType}
    (hys : ys = before ++ y :: after) (hvalue : y.isOptions = false)
    (hdeclares : s.parameter? (position + positionalCount before) = some declared) :
    ∃ x ∈ xs, resolve bind (operandType s declared expected) x = .ok y := by
  induction h generalizing before with
  | nil => cases before <;> cases hys
  | @options position x xs ys his hrest ih =>
      cases before with
      | nil =>
          cases hys
          cases hvalue.symm.trans his
      | cons z before =>
          cases hys
          rw [positionalCount_options his] at hdeclares
          obtain ⟨x', hx', hresolve⟩ := ih rfl hdeclares
          exact ⟨x', List.mem_cons_of_mem x hx', hresolve⟩
  | @declared position type x z xs ys hx hdeclares' hfirst hrest ih =>
      cases before with
      | nil =>
          cases hys
          cases hdeclares'.symm.trans hdeclares
          exact ⟨x, List.mem_cons_self, hfirst⟩
      | cons z before =>
          cases hys
          have hz := isOptions_of_resolve hbind hx hfirst
          rw [add_positionalCount_value hz] at hdeclares
          obtain ⟨x', hx', hresolve⟩ := ih rfl hdeclares
          exact ⟨x', List.mem_cons_of_mem x hx', hresolve⟩
  | @spare position x xs ys hx hundeclared hrest ih =>
      cases before with
      | nil =>
          cases hys
          cases hundeclared.symm.trans hdeclares
      | cons z before =>
          cases hys
          rw [add_positionalCount_value hx] at hdeclares
          obtain ⟨x', hx', hresolve⟩ := ih rfl hdeclares
          exact ⟨x', List.mem_cons_of_mem x hx', hresolve⟩

/-- The tree is one that resolution meets: arranged, and without bound names. -/
def Unresolved (e : Expr) : Prop :=
  EveryClause Arranged e ∧ EveryName (fun _ => True) (fun _ => False) e

theorem unresolved_of_readTree {source : String} {tree : Expr}
    (h : readTree source = .ok tree) : Unresolved (normalForm tree) :=
  ⟨(arranged_normalForm (raw_of_readTree h)).1, (everyName_of_readTree h).normalForm⟩

theorem unresolved_clause (op : String) (xs : List Expr) (o : Option Span) :
    Unresolved (.clause op xs o) ↔ Arranged op xs ∧ ∀ x ∈ xs, Unresolved x := by
  simp only [Unresolved, everyClause_clause, everyName_clause]
  grind

theorem unresolved_options (es : List (String × Expr)) (o : Option Span) :
    Unresolved (.options es o) ↔ ∀ e ∈ es, Unresolved e.2 := by
  simp only [Unresolved, everyClause_options, everyName_options]
  grind

theorem unresolved_pairs (ps : List (Expr × Expr)) (o : Option Span) :
    Unresolved (.pairs ps o) ↔ ∀ p ∈ ps, Unresolved p.1 ∧ Unresolved p.2 := by
  simp only [Unresolved, everyClause_pairs, everyName_pairs]
  grind

/-- Resolved tests are conditions, and resolved values fit where the conditional stands. -/
theorem typed_of_cases {ps qs : List (Expr × Expr)} {place : Option Span}
    (h : List.Forall₂ (fun p q => (Unresolved p.1 → Typed .boolean q.1) ∧
      (Unresolved p.2 → Typed expected q.2)) ps qs) (hgroup : Unresolved (.pairs ps place)) :
    ∀ q ∈ qs, Typed .boolean q.1 ∧ Typed expected q.2 := by
  intro q hq
  obtain ⟨p, hp, htest, hvalue⟩ := exists_mem_of_forall₂ h.flip hq
  obtain ⟨hinside, hinside'⟩ := (unresolved_pairs ps place).mp hgroup p hp
  exact ⟨htest hinside, hvalue hinside'⟩

/-- A conditional has grouped operands, which are not resolved one by one. -/
theorem Arranged.not_conditional {op : String} {xs : List Expr} (h : Arranged op xs)
    (hplain : (isConditional op && isGrouped xs) = false) : isConditional op = false := by
  refine Bool.eq_false_iff.mpr fun hcond => ?_
  have hgrouped : isGrouped xs = true := by
    rcases h.grouped hcond with ⟨ps, place, rfl, -⟩ | ⟨ps, place, d, spot, rfl, -⟩ <;> rfl
  rw [hcond, hgrouped] at hplain
  cases hplain

/-- Operands that are resolved one by one are typed where they have a declared type. -/
theorem typed_of_ungrouped (hbind : AnswersKind bind) {s : Signature} {op : String}
    {xs ys : List Expr} {o : Option Span} (hs : signature? op = some s)
    (hkind : expected.accepts s.kind = true) (hmet : Unresolved (.clause op xs o))
    (hplain : (isConditional op && isGrouped xs) = false)
    (h : OperandsResolve bind s expected 0 xs ys)
    (hxs : ∀ x ∈ xs, ∀ type r, resolve bind type x = .ok r → Unresolved x → Typed type r) :
    Typed expected (.clause op ys o) := by
  obtain ⟨hlayout, hbelow⟩ := (unresolved_clause op xs o).mp hmet
  have hcond := hlayout.not_conditional hplain
  refine .intro ⟨s, hs, hkind⟩ fun demand x hx => ?_
  obtain ⟨before, after, s', declared, hys, hs', hvalue, hdeclares, rfl⟩ :=
    checks_operand hcond hx
  cases hs.symm.trans hs'
  have hposition : s.parameter? (0 + positionalCount before) = some declared := by
    rwa [Nat.zero_add]
  obtain ⟨x', hx', hresolve⟩ := h.exists_operand hbind.answersNames hys hvalue hposition
  exact hxs x' hx' _ _ hresolve (hbelow x' hx')

/-- **What is resolved is typed.** -/
theorem typed_of_resolve (hbind : AnswersKind bind) {e r : Expr}
    (h : resolve bind expected e = .ok r) (hmet : Unresolved e) : Typed expected r := by
  revert hmet
  refine resolve_induct (motive := fun expected e r => Unresolved e → Typed expected r)
    ?literal ?reference ?bound ?options ?pairs ?cases ?casesDefault ?flat h
  case literal => exact fun _ v o _ _ => typed_literal v o
  case reference => exact fun _ _ _ _ _ hr _ => typed_of_answersKind hbind hr
  case bound => exact fun _ t o hmet => ((everyName_bound t o).mp hmet.2).elim
  case options => exact fun _ es o _ => typed_options es o
  case pairs => exact fun _ ps o _ => typed_pairs ps o
  case cases =>
    intro expected op ps qs place o s hs hkind _ _ hcases hmet
    have hgroup := ((unresolved_clause op _ o).mp hmet).2 _ List.mem_cons_self
    exact typed_cases ⟨s, hs, hkind⟩ (typed_of_cases hcases hgroup) (.inl rfl)
  case casesDefault =>
    intro expected op ps qs place es fs spot o s hs hkind _ _ hcases hentries hmet
    obtain ⟨hgroup, hrest⟩ := List.forall_mem_cons.mp ((unresolved_clause op _ o).mp hmet).2
    have hspot := (unresolved_options es spot).mp (List.forall_mem_singleton.mp hrest)
    have hdefault' : ∀ default, fs.lookup "default" = some default → Typed expected default := by
      intro default hentry
      obtain ⟨e, he, hresolved⟩ := hentries.exists_before hentry
      exact hresolved (hspot e he)
    exact typed_cases ⟨s, hs, hkind⟩ (typed_of_cases hcases hgroup)
      (.inr ⟨fs, spot, rfl, hdefault'⟩)
  case flat =>
    intro expected op xs ys o s hs hkind hplain _ hlist ih hmet
    exact typed_of_ungrouped hbind hs hkind hmet hplain hlist ih

end QueryFormula
