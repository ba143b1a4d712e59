import QueryFormula.Expr.BottomUp

/-!
# The nodes of a tree

`Expr.inductBelow` is induction over trees: what holds of a node as soon as it
holds of everything directly below holds of every tree.

`Expr.nodes` lists the nodes of a tree, `Expr.EveryClause` says something of the
operator and the operands of every clause among them, and the `everyClause_…`
lemmas take such a statement apart at the root.
-/

namespace QueryFormula.Expr

/-- **Induction over trees.**  The operands of a clause, the values of an options
object, and the tests and values of grouped cases are directly below a node. -/
@[induction_eliminator]
theorem inductBelow {motive : Expr → Prop}
    (literal : ∀ value origin, motive (.literal value origin))
    (reference : ∀ kind name origin, motive (.reference kind name origin))
    (bound : ∀ target origin, motive (.bound target origin))
    (clause : ∀ operator operands origin, (∀ x ∈ operands, motive x) →
      motive (.clause operator operands origin))
    (options : ∀ entries origin, (∀ entry ∈ entries, motive entry.2) →
      motive (.options entries origin))
    (pairs : ∀ cases origin, (∀ p ∈ cases, motive p.1 ∧ motive p.2) →
      motive (.pairs cases origin)) :
    ∀ e, motive e := by
  intro e
  refine @Expr.rec motive (fun xs => ∀ x ∈ xs, motive x) (fun es => ∀ entry ∈ es, motive entry.2)
    (fun ps => ∀ p ∈ ps, motive p.1 ∧ motive p.2) (fun entry => motive entry.2)
    (fun p => motive p.1 ∧ motive p.2) literal reference bound clause options pairs
    ?_ ?_ ?_ ?_ ?_ ?_ ?_ ?_ e
  · intro x hx
    cases hx
  · intro x xs hx hxs
    exact List.forall_mem_cons.mpr ⟨hx, hxs⟩
  · intro entry hentry
    cases hentry
  · intro entry es hentry hes
    exact List.forall_mem_cons.mpr ⟨hentry, hes⟩
  · intro p hp
    cases hp
  · intro p ps hp hps
    exact List.forall_mem_cons.mpr ⟨hp, hps⟩
  · intro _ _ h
    exact h
  · intro _ _ ht hv
    exact ⟨ht, hv⟩

/-- Something holds of the values of an options object, or of the tests and values of
grouped cases. -/
def Within (P : Expr → Prop) : Expr → Prop
  | options es _ => ∀ e ∈ es, P e.2
  | pairs ps _ => ∀ p ∈ ps, P p.1 ∧ P p.2
  | _ => True

/-- **Induction over clauses.**  As a clause deals with what is inside its options and
its grouped cases, it may look there too. -/
theorem inductClauses {motive : Expr → Prop}
    (literal : ∀ value origin, motive (.literal value origin))
    (reference : ∀ kind name origin, motive (.reference kind name origin))
    (bound : ∀ target origin, motive (.bound target origin))
    (clause : ∀ operator operands origin, (∀ x ∈ operands, motive x ∧ Within motive x) →
      motive (.clause operator operands origin))
    (options : ∀ entries origin, (∀ entry ∈ entries, motive entry.2) →
      motive (.options entries origin))
    (pairs : ∀ cases origin, (∀ p ∈ cases, motive p.1 ∧ motive p.2) →
      motive (.pairs cases origin)) (e : Expr) : motive e := by
  have hboth : motive e ∧ Within motive e := by
    induction e with
    | literal v o => exact ⟨literal v o, trivial⟩
    | reference k n o => exact ⟨reference k n o, trivial⟩
    | bound t o => exact ⟨bound t o, trivial⟩
    | clause op xs o ih => exact ⟨clause op xs o ih, trivial⟩
    | options es o ih =>
        have hbelow : ∀ e ∈ es, motive e.2 := fun e he => (ih e he).1
        exact ⟨options es o hbelow, hbelow⟩
    | pairs ps o ih =>
        have hbelow : ∀ p ∈ ps, motive p.1 ∧ motive p.2 := fun p hp =>
          ⟨(ih p hp).1.1, (ih p hp).2.1⟩
        exact ⟨pairs ps o hbelow, hbelow⟩
  exact hboth.1

mutual

/-- The nodes of a tree, each before what is below it. -/
def nodes : Expr → List Expr
  | clause op xs o => clause op xs o :: nodesOfAll xs
  | options es o => options es o :: nodesOfEntries es
  | pairs ps o => pairs ps o :: nodesOfPairs ps
  | e => [e]

/-- The nodes of operands. -/
def nodesOfAll : List Expr → List Expr
  | [] => []
  | x :: xs => nodes x ++ nodesOfAll xs

/-- The nodes of the values of an options object. -/
def nodesOfEntries : List (String × Expr) → List Expr
  | [] => []
  | (_, v) :: es => nodes v ++ nodesOfEntries es

/-- The nodes of tests and values. -/
def nodesOfPairs : List (Expr × Expr) → List Expr
  | [] => []
  | (t, v) :: ps => nodes t ++ nodes v ++ nodesOfPairs ps

end

attribute [local simp] nodes nodesOfAll nodesOfEntries nodesOfPairs

theorem nodesOfAll_eq_flatMap (xs : List Expr) : nodesOfAll xs = xs.flatMap nodes := by
  induction xs with
  | nil => rfl
  | cons x xs ih => rw [nodesOfAll, ih, List.flatMap_cons]

theorem nodesOfEntries_eq_flatMap (es : List (String × Expr)) :
    nodesOfEntries es = es.flatMap fun e => e.2.nodes := by
  induction es with
  | nil => rfl
  | cons e es ih => rw [nodesOfEntries, ih, List.flatMap_cons]

theorem nodesOfPairs_eq_flatMap (ps : List (Expr × Expr)) :
    nodesOfPairs ps = ps.flatMap fun p => p.1.nodes ++ p.2.nodes := by
  induction ps with
  | nil => rfl
  | cons p ps ih => rw [nodesOfPairs, ih, List.flatMap_cons]

/-- The operator and the operands are as required, if the node is a clause. -/
def ClauseHas (L : String → List Expr → Prop) : Expr → Prop
  | clause op operands _ => L op operands
  | _ => True

/-- The operator and the operands of every clause of the tree are as required. -/
def EveryClause (L : String → List Expr → Prop) (e : Expr) : Prop :=
  ∀ x ∈ e.nodes, ClauseHas L x

section EveryClause

variable {L : String → List Expr → Prop}

@[simp] theorem everyClause_literal (v : Literal) (o : Option Span) :
    EveryClause L (literal v o) := by
  simp [EveryClause, ClauseHas]

@[simp] theorem everyClause_reference (k : NameKind) (n : String) (o : Option Span) :
    EveryClause L (reference k n o) := by
  simp [EveryClause, ClauseHas]

@[simp] theorem everyClause_bound (t : BoundRef) (o : Option Span) :
    EveryClause L (bound t o) := by
  simp [EveryClause, ClauseHas]

@[simp] theorem everyClause_clause (op : String) (xs : List Expr) (o : Option Span) :
    EveryClause L (clause op xs o) ↔ L op xs ∧ ∀ x ∈ xs, EveryClause L x := by
  simp only [EveryClause, nodes, nodesOfAll_eq_flatMap, List.forall_mem_cons,
    List.forall_mem_flatMap, ClauseHas]

@[simp] theorem everyClause_options (es : List (String × Expr)) (o : Option Span) :
    EveryClause L (options es o) ↔ ∀ e ∈ es, EveryClause L e.2 := by
  simp only [EveryClause, nodes, nodesOfEntries_eq_flatMap, List.forall_mem_cons,
    List.forall_mem_flatMap, ClauseHas, true_and]

@[simp] theorem everyClause_pairs (ps : List (Expr × Expr)) (o : Option Span) :
    EveryClause L (pairs ps o) ↔ ∀ p ∈ ps, EveryClause L p.1 ∧ EveryClause L p.2 := by
  simp only [EveryClause, nodes, nodesOfPairs_eq_flatMap, List.forall_mem_cons,
    List.forall_mem_flatMap, List.forall_mem_append, ClauseHas, true_and]

/-- Two requirements are one. -/
theorem everyClause_and {L' : String → List Expr → Prop} {e : Expr} :
    EveryClause (fun op operands => L op operands ∧ L' op operands) e ↔
      EveryClause L e ∧ EveryClause L' e := by
  constructor
  · refine fun h => ⟨fun x hx => ?_, fun x hx => ?_⟩
    · cases x with
      | clause op xs o => exact (h _ hx).1
      | _ => trivial
    · cases x with
      | clause op xs o => exact (h _ hx).2
      | _ => trivial
  · intro h x hx
    cases x with
    | clause op xs o => exact ⟨h.1 _ hx, h.2 _ hx⟩
    | _ => trivial

theorem everyClause_true (e : Expr) : EveryClause (fun _ _ => True) e := by
  intro x _
  cases x <;> trivial

end EveryClause

/-- What is under a key is an entry. -/
theorem mem_of_lookup {key : String} {value : Expr} {es : List (String × Expr)}
    (h : es.lookup key = some value) : (key, value) ∈ es := by
  obtain ⟨front, back, rfl, -⟩ := List.lookup_eq_some_iff.mp h
  exact List.mem_append_right front List.mem_cons_self

/-- The value under a key, in rebuilt entries. -/
theorem lookup_map_values (f : Expr → Expr) (key : String) (es : List (String × Expr)) :
    (es.map fun e => (e.1, f e.2)).lookup key = (es.lookup key).map f := by
  induction es with
  | nil => rfl
  | cons e es ih =>
      rw [List.map_cons, List.lookup_cons, List.lookup_cons, ih]
      cases key == e.1 <;> rfl

/-- The node is neither an options object nor grouped cases. -/
def isPlain (e : Expr) : Bool :=
  !e.isOptions && !e.isPairs

/-- All operands are plain. -/
def PlainOperands (_ : String) (operands : List Expr) : Prop :=
  ∀ x ∈ operands, x.isPlain = true

/-- The tree is made of nothing but literals, names and clauses. -/
def Raw (e : Expr) : Prop :=
  e.isPlain = true ∧ EveryClause PlainOperands e

/-- A clause of raw operands is raw. -/
theorem Raw.clause {op : String} {xs : List Expr} {o : Option Span} (h : ∀ x ∈ xs, x.Raw) :
    Raw (.clause op xs o) :=
  ⟨rfl, (everyClause_clause op xs o).mpr ⟨fun x hx => (h x hx).1, fun x hx => (h x hx).2⟩⟩

end QueryFormula.Expr
