import QueryFormula.Proofs.Expr.Nodes
import QueryFormula.Resolution.Resolve

/-!
# What the catalog has a say in

A clause with options may hold one operand more than it declares.  No declared
type governs that operand, and resolution does not look at it.  `Expr.governed`
lists all other nodes of a tree.

`Expr.IsChecked` is what resolution promises of a node: no name is left unbound,
and a clause is one of the catalog with operands that its signature admits.
-/

namespace QueryFormula

/-- No argument is declared for the operand of a clause at this position. -/
def isSpare (op : String) (position : Nat) : Bool :=
  (signature? op).any fun s => (s.parameter? position).isNone

namespace Expr

mutual

/-- The nodes of a tree that do not lie in a spare operand. -/
def governed : Expr → List Expr
  | clause op xs o => clause op xs o :: governedOperands op 0 xs
  | options es o => options es o :: governedEntries es
  | pairs ps o => pairs ps o :: governedCases ps
  | e => [e]

/-- The nodes of the operands of a clause from a position on; options have no
position. -/
def governedOperands (op : String) (position : Nat) : List Expr → List Expr
  | [] => []
  | x :: xs =>
    if x.isOptions then governed x ++ governedOperands op position xs
    else
      (if isSpare op position then [] else governed x) ++ governedOperands op (position + 1) xs

/-- The nodes of the values of an options object. -/
def governedEntries : List (String × Expr) → List Expr
  | [] => []
  | (_, v) :: es => governed v ++ governedEntries es

/-- The nodes of tests and values. -/
def governedCases : List (Expr × Expr) → List Expr
  | [] => []
  | (t, v) :: ps => governed t ++ governed v ++ governedCases ps

end

/-- The options objects among the operands of a clause. -/
def optionsCount (operands : List Expr) : Nat :=
  operands.countP isOptions

end Expr

/-- The operands are as a clause of this signature may have them. -/
inductive Signature.Admits (s : Signature) : List Expr → Prop
  /-- The grouped cases of a conditional. -/
  | cases {ps : List (Expr × Expr)} {place : Option Span}
      (conditional : isConditional s.name = true) (any : ps ≠ []) :
      s.Admits [.pairs ps place]
  /-- Grouped cases and a default. -/
  | casesDefault {ps : List (Expr × Expr)} {place spot : Option Span} {default : Expr}
      (conditional : isConditional s.name = true) (any : ps ≠ []) :
      s.Admits [.pairs ps place, .options [("default", default)] spot]
  /-- At least the declared arguments. -/
  | variadic {xs : List Expr} (conditional : isConditional s.name = false)
      (variadic : s.variadic = true) (count : s.parameters.length ≤ positionalCount xs) :
      s.Admits xs
  /-- The declared arguments, one more at most where options are taken, and one
  options object at most where options are taken or the clause is `offset`. -/
  | fixed {xs : List Expr} (conditional : isConditional s.name = false)
      (fixed : s.variadic = false)
      (count : positionalCount xs = s.parameters.length ∨
        s.takesOptions = true ∧ positionalCount xs = s.parameters.length + 1)
      (one : Expr.optionsCount xs ≤ 1)
      (options : Expr.optionsCount xs ≠ 0 → s.takesOptions = true ∨ s.name = "offset") :
      s.Admits xs

namespace Expr

/-- Operands of the same kinds have the same counts. -/
theorem counts_of_map_isOptions {xs ys : List Expr} (h : ys.map isOptions = xs.map isOptions) :
    positionalCount ys = positionalCount xs ∧ optionsCount ys = optionsCount xs := by
  have hcount : ∀ (p : Bool → Bool) (zs : List Expr),
      zs.countP (fun z => p z.isOptions) = (zs.map isOptions).countP p := by
    intro p zs
    rw [List.countP_map]
    rfl
  constructor
  · exact (hcount (!·) ys).trans (h ▸ (hcount (!·) xs).symm)
  · exact (hcount id ys).trans (h ▸ (hcount id xs).symm)

end Expr

/-- Ungrouped operands of the same kinds are admitted alike. -/
theorem Signature.Admits.of_kinds {s : Signature} {xs ys : List Expr} (h : s.Admits xs)
    (hcond : isConditional s.name = false)
    (hkinds : ys.map Expr.isOptions = xs.map Expr.isOptions) : s.Admits ys := by
  obtain ⟨hpositional, hoptions⟩ := Expr.counts_of_map_isOptions hkinds
  cases h with
  | cases h => cases hcond.symm.trans h
  | casesDefault h => cases hcond.symm.trans h
  | variadic _ hvariadic hcount => exact .variadic hcond hvariadic (hpositional ▸ hcount)
  | fixed _ hfixed hcount hone hwhere =>
      exact .fixed hcond hfixed (hpositional ▸ hcount) (hoptions ▸ hone) (hoptions ▸ hwhere)

/-- The node is no unbound name, and if it is a clause, then one of the catalog
with operands that its signature admits. -/
def Expr.IsChecked : Expr → Prop
  | .reference _ _ _ => False
  | .clause op operands _ => ∃ s, signature? op = some s ∧ s.Admits operands
  | _ => True

namespace Expr

attribute [local simp] governed governedOperands governedEntries governedCases

/-- Every node of the tree that does not lie in a spare operand is checked. -/
def Checked (e : Expr) : Prop :=
  ∀ x ∈ e.governed, x.IsChecked

/-- Every node of the operands from a position on that does not lie in a spare
operand is checked. -/
def OperandsChecked (op : String) (position : Nat) (operands : List Expr) : Prop :=
  ∀ x ∈ governedOperands op position operands, x.IsChecked

@[simp] theorem checked_literal (v : Literal) (o : Option Span) : Checked (literal v o) := by
  simp [Checked, IsChecked]

@[simp] theorem checked_bound (t : BoundRef) (o : Option Span) : Checked (bound t o) := by
  simp [Checked, IsChecked]

theorem not_checked_reference (k : NameKind) (n : String) (o : Option Span) :
    ¬Checked (reference k n o) := by
  simp [Checked, IsChecked]

@[simp] theorem checked_clause (op : String) (xs : List Expr) (o : Option Span) :
    Checked (clause op xs o) ↔
      (∃ s, signature? op = some s ∧ s.Admits xs) ∧ OperandsChecked op 0 xs := by
  simp only [Checked, governed, List.forall_mem_cons, IsChecked, OperandsChecked]

@[simp] theorem checked_options (es : List (String × Expr)) (o : Option Span) :
    Checked (options es o) ↔ ∀ e ∈ es, Checked e.2 := by
  simp only [Checked, governed, List.forall_mem_cons, IsChecked, true_and]
  induction es with
  | nil => simp
  | cons e es ih => simp only [governedEntries, List.forall_mem_append, List.forall_mem_cons, ih]

@[simp] theorem checked_pairs (ps : List (Expr × Expr)) (o : Option Span) :
    Checked (pairs ps o) ↔ ∀ p ∈ ps, Checked p.1 ∧ Checked p.2 := by
  simp only [Checked, governed, List.forall_mem_cons, IsChecked, true_and]
  induction ps with
  | nil => simp
  | cons p ps ih => simp only [governedCases, List.forall_mem_append, List.forall_mem_cons, ih]

@[simp] theorem operandsChecked_nil (op : String) (position : Nat) :
    OperandsChecked op position [] := by
  simp [OperandsChecked]

theorem operandsChecked_options {op : String} {position : Nat} {x : Expr} {xs : List Expr}
    (hx : x.isOptions = true) :
    OperandsChecked op position (x :: xs) ↔ Checked x ∧ OperandsChecked op position xs := by
  simp only [OperandsChecked, governedOperands, hx, if_true, List.forall_mem_append, Checked]

theorem operandsChecked_value {op : String} {position : Nat} {x : Expr} {xs : List Expr}
    (hx : x.isOptions = false) :
    OperandsChecked op position (x :: xs) ↔
      (isSpare op position = false → Checked x) ∧ OperandsChecked op (position + 1) xs := by
  simp only [OperandsChecked, governedOperands, hx, Bool.false_eq_true, if_false,
    List.forall_mem_append, Checked]
  cases isSpare op position <;> simp

end Expr

end QueryFormula
