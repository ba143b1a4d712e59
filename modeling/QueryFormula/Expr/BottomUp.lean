import QueryFormula.Expr.Basic

/-!
# Rebuilding a tree

`Expr.bottomUp f` rebuilds a tree from its leaves up and hands each rebuilt node
to `f`.  What `f` makes of a node keeps the node's origin unless it has one of
its own.
-/

namespace QueryFormula.Expr

mutual

/-- Rebuild a tree bottom-up. -/
def bottomUp (f : Expr → Expr) : Expr → Expr
  | literal v o => (f (literal v o)).adoptOrigin o
  | reference k n o => (f (reference k n o)).adoptOrigin o
  | bound t o => (f (bound t o)).adoptOrigin o
  | clause op xs o => (f (clause op (bottomUpAll f xs) o)).adoptOrigin o
  | options es o => (f (options (bottomUpEntries f es) o)).adoptOrigin o
  | pairs ps o => (f (pairs (bottomUpPairs f ps) o)).adoptOrigin o

/-- Rebuild the operands of a clause. -/
def bottomUpAll (f : Expr → Expr) : List Expr → List Expr
  | [] => []
  | x :: xs => bottomUp f x :: bottomUpAll f xs

/-- Rebuild the values of an options object. -/
def bottomUpEntries (f : Expr → Expr) : List (String × Expr) → List (String × Expr)
  | [] => []
  | (k, v) :: es => (k, bottomUp f v) :: bottomUpEntries f es

/-- Rebuild tests and values. -/
def bottomUpPairs (f : Expr → Expr) : List (Expr × Expr) → List (Expr × Expr)
  | [] => []
  | (t, v) :: ps => (bottomUp f t, bottomUp f v) :: bottomUpPairs f ps

end

/-- Apply `f` to a clause and leave any other node as it is. -/
def onClause (f : String → List Expr → Option Span → Expr) : Expr → Expr
  | clause op operands o => f op operands o
  | e => e

theorem bottomUpAll_eq_map (f : Expr → Expr) (xs : List Expr) :
    bottomUpAll f xs = xs.map (bottomUp f) := by
  induction xs with
  | nil => rfl
  | cons x xs ih => simp [bottomUpAll, ih]

theorem bottomUpEntries_eq_map (f : Expr → Expr) (es : List (String × Expr)) :
    bottomUpEntries f es = es.map fun e => (e.1, bottomUp f e.2) := by
  induction es with
  | nil => rfl
  | cons e es ih => simp [bottomUpEntries, ih]

theorem bottomUpPairs_eq_map (f : Expr → Expr) (ps : List (Expr × Expr)) :
    bottomUpPairs f ps = ps.map fun p => (bottomUp f p.1, bottomUp f p.2) := by
  induction ps with
  | nil => rfl
  | cons p ps ih => simp [bottomUpPairs, ih]

end QueryFormula.Expr
