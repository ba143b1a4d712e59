import QueryFormula.Expr.Basic

/-!
# Ways down a tree

A `Step` leads from a node to one directly below it, and `Expr.at?` follows one step after
another.  What a node shows of itself, everything below it aside, is its `Expr.face`; trees
with the same faces at the same places are built alike (`Expr.LooksAlike`).
-/

namespace QueryFormula

/-- A step from a node to one directly below it. -/
inductive Step where
  | operand (index : Nat)
  /-- To the value of a named option. -/
  | entry (key : String)
  /-- To the test of a grouped case. -/
  | test (index : Nat)
  /-- To the value of a grouped case. -/
  | value (index : Nat)
deriving DecidableEq, Repr

/-- A node without what is below it. -/
inductive Face where
  | literal (value : Literal)
  | reference (kind : NameKind) (name : String)
  | bound (target : BoundRef)
  | clause (operator : String) (count : Nat)
  | options (keys : List String)
  | pairs (count : Nat)
deriving DecidableEq

/-- A node shows that there is one below it where the step leads. -/
def Face.leads : Face → Step → Bool
  | .clause _ count, .operand i => decide (i < count)
  | .options keys, .entry key => keys.contains key
  | .pairs count, .test i => decide (i < count)
  | .pairs count, .value i => decide (i < count)
  | _, _ => false

namespace Expr

/-- The node that a step leads to. -/
def child? : Expr → Step → Option Expr
  | clause _ xs _, .operand i => xs[i]?
  | options es _, .entry key => es.lookup key
  | pairs ps _, .test i => ps[i]?.map Prod.fst
  | pairs ps _, .value i => ps[i]?.map Prod.snd
  | _, _ => none

/-- The node that some steps lead to. -/
def at? : Expr → List Step → Option Expr
  | e, [] => some e
  | e, step :: path => (e.child? step).bind (·.at? path)

/-- What a node shows of itself, and where it was read from. -/
def face : Expr → Face × Option Span
  | literal v o => (.literal v, o)
  | reference k n o => (.reference k n, o)
  | bound t o => (.bound t, o)
  | clause op xs o => (.clause op xs.length, o)
  | options es o => (.options (es.map Prod.fst), o)
  | pairs ps o => (.pairs ps.length, o)

@[simp] theorem at?_nil (e : Expr) : e.at? [] = some e :=
  rfl

@[simp] theorem at?_cons (e : Expr) (step : Step) (path : List Step) :
    e.at? (step :: path) = (e.child? step).bind (·.at? path) :=
  rfl

/-- Some steps and then others. -/
theorem at?_append (e : Expr) (front path : List Step) :
    e.at? (front ++ path) = (e.at? front).bind (·.at? path) := by
  induction front generalizing e with
  | nil => rfl
  | cons step front ih =>
      rw [List.cons_append, at?_cons, at?_cons]
      cases e.child? step with
      | none => rfl
      | some x => exact ih x

/-- What a node shows tells where there are nodes below it. -/
theorem child?_eq_none_iff (e : Expr) (step : Step) :
    e.child? step = none ↔ e.face.1.leads step = false := by
  cases e with
  | options es o =>
      cases step with
      | entry key =>
          simp only [child?, face, Face.leads, List.lookup_eq_none_iff, bne_iff_ne,
            List.contains_eq_mem, decide_eq_false_iff_not, List.mem_map, not_exists, not_and]
          exact ⟨fun h p hp hkey => h p hp hkey.symm, fun h p hp hkey => h p hp hkey.symm⟩
      | _ => exact iff_of_true rfl rfl
  | _ => cases step <;> simp [child?, face, Face.leads]

/-- Two trees show the same where some steps lead, or nothing stands there in either. -/
def LooksAlike (path : List Step) (e r : Expr) : Prop :=
  (e.at? path).map face = (r.at? path).map face

theorem LooksAlike.refl (path : List Step) (e : Expr) : LooksAlike path e e :=
  rfl

/-- Nodes of one face look alike if what is below them does, on the way that is taken. -/
theorem looksAlike_of_child {e r : Expr} {path : List Step} (hface : e.face = r.face)
    (hchild : ∀ step rest, path = step :: rest →
      e.child? step = none ∧ r.child? step = none ∨
        ∃ x y, e.child? step = some x ∧ r.child? step = some y ∧ LooksAlike rest x y) :
    LooksAlike path e r := by
  cases path with
  | nil => exact congrArg some hface
  | cons step rest =>
      rw [LooksAlike, at?_cons, at?_cons]
      rcases hchild step rest rfl with ⟨he, hr⟩ | ⟨x, y, he, hr, hbelow⟩
      · rw [he, hr]
      · rw [he, hr]
        exact hbelow

end Expr

end QueryFormula
