import QueryFormula.Proofs.Compile
import QueryFormula.Proofs.Expr.Nodes

/-!
# What is parsed

The grammar builds literals, unbound names and clauses, each with its place in the
source, and nothing else (`Expr.Written`): options objects and grouped cases are the
work of the normal form, and names are bound by resolution.
-/

namespace QueryFormula

/-- The tree is one that the grammar builds. -/
inductive Expr.Written : Expr → Prop
  | literal (value : Literal) (place : Span) : Written (.literal value (some place))
  | name (name : String) (place : Span) : Written (.reference .dimension name (some place))
  | clause {op : String} {xs : List Expr} (place : Span) (operands : ∀ x ∈ xs, Written x) :
      Written (.clause op xs (some place))

namespace Expr.Written

theorem exists_origin {e : Expr} (h : e.Written) : ∃ place, e.origin = some place := by
  cases h with
  | literal v place => exact ⟨place, rfl⟩
  | name n place => exact ⟨place, rfl⟩
  | clause place _ => exact ⟨place, rfl⟩

/-- What has its place keeps it. -/
theorem adoptOrigin_eq {e : Expr} (h : e.Written) (o : Option Span) : e.adoptOrigin o = e := by
  obtain ⟨place, hplace⟩ := h.exists_origin
  rw [adoptOrigin, hplace]

theorem operand {op : String} {xs : List Expr} {o : Option Span}
    (h : Written (.clause op xs o)) : ∀ x ∈ xs, x.Written := by
  cases h with
  | clause _ hxs => exact hxs

theorem isPlain {e : Expr} (h : e.Written) : e.isPlain = true := by
  cases h <;> rfl

theorem raw {e : Expr} (h : e.Written) : e.Raw := by
  induction h with
  | literal v place => exact ⟨rfl, everyClause_literal v _⟩
  | name n place => exact ⟨rfl, everyClause_reference _ n _⟩
  | clause place _ ih => exact .clause ih

end Expr.Written

namespace Grammar

theorem written_binary {left right : Expr} (op : Operator) (hleft : left.Written)
    (hright : right.Written) : (binary left op right).Written := by
  obtain ⟨start, hstart⟩ := hleft.exists_origin
  obtain ⟨stop, hstop⟩ := hright.exists_origin
  rw [binary, hstart, hstop]
  exact .clause _ (List.forall_mem_cons.mpr ⟨hleft, List.forall_mem_singleton.mpr hright⟩)

theorem written_unary {operand : Expr} (op : Operator) (sign : Span) (h : operand.Written) :
    (unary op sign operand).Written := by
  unfold unary
  split
  · exact .literal _ _
  · exact .literal _ _
  · exact .clause _ (List.forall_mem_singleton.mpr h)

/-- A chain that gets one operand more keeps the ones it has. -/
theorem written_appendOperand {left right : Expr} (op : Operator) (hleft : left.Written)
    (hright : right.Written) : (appendOperand left op right).Written := by
  unfold appendOperand
  split
  · rename_i name xs o
    split
    · obtain ⟨start, hstart⟩ : ∃ place, o = some place := hleft.exists_origin
      obtain ⟨stop, hstop⟩ := hright.exists_origin
      rw [hstart, hstop]
      exact .clause _ (List.forall_mem_append.mpr
        ⟨hleft.operand, List.forall_mem_singleton.mpr hright⟩)
    · exact written_binary op hleft hright
  · exact written_binary op hleft hright

mutual

/-- A phrase stands for a tree that the grammar builds. -/
theorem Phrase.written_tree {level : Level} : (phrase : Phrase level) → phrase.tree.Written
  | .literal token value _ => .literal value token.span
  | .name token _ => .name _ token.span
  | .emptyCall _ => .clause _ fun _ hx => absurd hx List.not_mem_nil
  | .call _ list => .clause _ list.written_trees
  | .group _ inner _ => inner.written_tree
  | .signed sign operand => written_unary sign.op sign.token.span operand.written_tree
  | .negated sign operand => written_unary sign.op sign.token.span operand.written_tree
  | .compared left sign right => written_binary sign.op left.written_tree right.written_tree
  | .chain _ first links => links.written_extend first.written_tree

theorem Links.written_extend {level : Level} {left : Expr} (hleft : left.Written) :
    (links : Links level) → (links.extend left).Written
  | .nil => hleft
  | .cons sign operand links =>
      links.written_extend (written_appendOperand sign.op hleft operand.written_tree)

theorem Arguments.written_trees : (list : Arguments) → ∀ x ∈ list.trees, x.Written
  | .last argument => List.forall_mem_singleton.mpr argument.written_tree
  | .cons argument _ others =>
      List.forall_mem_cons.mpr ⟨argument.written_tree, others.written_trees⟩

end

end Grammar

/-- **What is parsed.** -/
theorem written_of_parse {source : String} {tokens : List Token} {tree : Expr}
    (h : parse source tokens = .ok tree) : tree.Written := by
  obtain ⟨phrase, -, rfl, -⟩ := exists_phrase_of_parse h
  exact phrase.written_tree

theorem written_of_readTree {source : String} {tree : Expr} (h : readTree source = .ok tree) :
    tree.Written :=
  written_of_parse (readTree_eq_ok_iff.mp h).2

theorem raw_of_readTree {source : String} {tree : Expr} (h : readTree source = .ok tree) :
    tree.Raw :=
  (written_of_readTree h).raw

end QueryFormula
