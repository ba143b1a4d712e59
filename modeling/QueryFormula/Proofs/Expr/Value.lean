import QueryFormula.Expr.Basic

/-!
# The value of a tree

An `Algebra` on a domain says what a node is worth when the values of everything below it are
known.  Places do not count, so equal trees at different places have the same value.
-/

namespace QueryFormula

universe u

/-- A meaning for each kind of node. -/
structure Algebra (α : Type u) where
  literal : Literal → α
  reference : NameKind → String → α
  bound : BoundRef → α
  clause : String → List α → α
  options : List (String × α) → α
  pairs : List (α × α) → α

namespace Expr

variable {α : Type u} (A : Algebra α)

mutual

/-- What a tree is worth. -/
def value : Expr → α
  | literal v _ => A.literal v
  | reference k n _ => A.reference k n
  | bound t _ => A.bound t
  | clause op xs _ => A.clause op (valuesOfAll xs)
  | options es _ => A.options (valuesOfEntries es)
  | pairs ps _ => A.pairs (valuesOfPairs ps)

/-- The values of operands. -/
def valuesOfAll : List Expr → List α
  | [] => []
  | x :: xs => value x :: valuesOfAll xs

/-- The values under the keys of an options object. -/
def valuesOfEntries : List (String × Expr) → List (String × α)
  | [] => []
  | (k, v) :: es => (k, value v) :: valuesOfEntries es

/-- The values of grouped cases. -/
def valuesOfPairs : List (Expr × Expr) → List (α × α)
  | [] => []
  | (t, v) :: ps => (value t, value v) :: valuesOfPairs ps

end

theorem valuesOfAll_eq_map (xs : List Expr) : valuesOfAll A xs = xs.map (value A) := by
  induction xs with
  | nil => rfl
  | cons x xs ih => rw [valuesOfAll, ih, List.map_cons]

theorem valuesOfEntries_eq_map (es : List (String × Expr)) :
    valuesOfEntries A es = es.map fun e => (e.1, e.2.value A) := by
  induction es with
  | nil => rfl
  | cons e es ih => rw [valuesOfEntries, ih, List.map_cons]

theorem valuesOfPairs_eq_map (ps : List (Expr × Expr)) :
    valuesOfPairs A ps = ps.map fun p => (p.1.value A, p.2.value A) := by
  induction ps with
  | nil => rfl
  | cons p ps ih => rw [valuesOfPairs, ih, List.map_cons]

theorem value_clause (op : String) (xs : List Expr) (o : Option Span) :
    (clause op xs o).value A = A.clause op (xs.map (value A)) := by
  rw [value, valuesOfAll_eq_map]

theorem value_options (es : List (String × Expr)) (o : Option Span) :
    (options es o).value A = A.options (es.map fun e => (e.1, e.2.value A)) := by
  rw [value, valuesOfEntries_eq_map]

theorem value_pairs (ps : List (Expr × Expr)) (o : Option Span) :
    (pairs ps o).value A = A.pairs (ps.map fun p => (p.1.value A, p.2.value A)) := by
  rw [value, valuesOfPairs_eq_map]

/-- Another origin is worth nothing. -/
@[simp] theorem value_adoptOrigin (e : Expr) (o : Option Span) :
    (e.adoptOrigin o).value A = e.value A := by
  cases e <;> rename_i p <;> cases p <;> rfl

end Expr

end QueryFormula
