import Mathlib.Data.List.Basic
import QueryFormula.Proofs.Expr.Rearrange

/-!
# What a tree lists

`Expr.listed view` is what a view shows of the nodes of a tree, from left to right.  A walk
that keeps the list at every clause keeps it for the tree (`listed_bottomUp`); this is how
nothing is lost, doubled or put in another order.
-/

namespace QueryFormula.Expr

variable {β : Type} {view : Expr → Option β}

/-- What the view shows of the nodes of a tree, of each before what is below it. -/
def listed (view : Expr → Option β) (e : Expr) : List β :=
  e.nodes.filterMap view

theorem filterMap_cons_toList (x : Expr) (xs : List Expr) :
    (x :: xs).filterMap view = (view x).toList ++ xs.filterMap view := by
  cases hx : view x <;> simp [hx]

/-- Of a node with nothing below it only itself may be shown. -/
theorem listed_leaf {e : Expr} (h : e.nodes = [e]) : listed view e = (view e).toList := by
  rw [listed, h, filterMap_cons_toList, List.filterMap_nil, List.append_nil]

theorem listed_clause (op : String) (xs : List Expr) (o : Option Span) :
    listed view (clause op xs o) = (view (clause op xs o)).toList ++ xs.flatMap (listed view) := by
  rw [listed, nodes, filterMap_cons_toList, nodesOfAll_eq_flatMap, List.filterMap_flatMap]
  rfl

theorem listed_options (es : List (String × Expr)) (o : Option Span) :
    listed view (options es o) =
      (view (options es o)).toList ++ es.flatMap fun e => e.2.listed view := by
  rw [listed, nodes, filterMap_cons_toList, nodesOfEntries_eq_flatMap, List.filterMap_flatMap]
  rfl

theorem listed_pairs (ps : List (Expr × Expr)) (o : Option Span) :
    listed view (pairs ps o) =
      (view (pairs ps o)).toList ++ ps.flatMap fun p => p.1.listed view ++ p.2.listed view := by
  rw [listed, nodes, filterMap_cons_toList, nodesOfPairs_eq_flatMap, List.filterMap_flatMap]
  simp only [List.filterMap_append]
  rfl

/-- A list that is put together from those of its members, each the same as before. -/
theorem flatMap_map_congr {α : Type} {f : α → α} {g : α → List β} {xs : List α}
    (h : ∀ x ∈ xs, g (f x) = g x) : (xs.map f).flatMap g = xs.flatMap g := by
  rw [List.flatMap_map]
  exact List.flatMap_congr h

/-- **What a walk keeps.**  The step may do anything to a clause of the sort that keeps the
list, once nothing is lost below the clause; rebuilt operands show nothing else of it. -/
theorem listed_bottomUp {g : ClauseStep} {L : String → List Expr → Prop}
    (hoptions : ∀ es o, view (options es o) = none) (hpairs : ∀ ps o, view (pairs ps o) = none)
    (hview : ∀ op xs o, EveryClause L (clause op xs o) →
      view (clause op (xs.map (bottomUp (onClause g))) o) = view (clause op xs o))
    (hstep : ∀ op xs o, EveryClause L (clause op xs o) →
      (∀ x ∈ xs, listed view (bottomUp (onClause g) x) = listed view x) →
      listed view ((g op (xs.map (bottomUp (onClause g))) o).adoptOrigin o) =
        listed view (clause op (xs.map (bottomUp (onClause g))) o))
    {e : Expr} (h : EveryClause L e) : listed view (bottomUp (onClause g) e) = listed view e := by
  induction e with
  | literal v o => rw [bottomUp_literal]
  | reference k n o => rw [bottomUp_reference]
  | bound t o => rw [bottomUp_bound]
  | clause op xs o ih =>
      have hbelow := ((everyClause_clause op xs o).mp h).2
      have hxs : ∀ x ∈ xs, listed view (bottomUp (onClause g) x) = listed view x :=
        fun x hx => ih x hx (hbelow x hx)
      rw [bottomUp_clause_adopt, hstep op xs o h hxs, listed_clause, listed_clause,
        hview op xs o h, flatMap_map_congr hxs]
  | options es o ih =>
      have hbelow := (everyClause_options es o).mp h
      rw [bottomUp_options, listed_options, listed_options, hoptions, hoptions, List.flatMap_map]
      exact congrArg _ (List.flatMap_congr fun e he => ih e he (hbelow e he))
  | pairs ps o ih =>
      have hbelow := (everyClause_pairs ps o).mp h
      rw [bottomUp_pairs, listed_pairs, listed_pairs, hpairs, hpairs, List.flatMap_map]
      refine congrArg _ (List.flatMap_congr fun p hp => ?_)
      rw [(ih p hp).1 (hbelow p hp).1, (ih p hp).2 (hbelow p hp).2]

end QueryFormula.Expr
