import QueryFormula.Grammar.Node

/-!
# Joining one operand more

An operator joins an operand to a tree either by extending the clause that is there, if that
is a chain of the operator, or by a new clause of two operands.
-/

namespace QueryFormula.Grammar

theorem symbol_injective {op op' : Operator} (h : op.symbol = op'.symbol) : op = op' := by
  cases op <;> cases op' <;> first | rfl | exact absurd h (by decide)

/-- A chain is a clause of the operator with two operands or more. -/
theorem isChainOf_iff {e : Expr} {op : Operator} :
    isChainOf e op = true ↔ ∃ xs o, e = .clause op.symbol xs o ∧ 2 ≤ xs.length := by
  constructor
  · intro h
    cases e with
    | clause name xs o =>
        simp only [isChainOf, Bool.and_eq_true, beq_iff_eq, decide_eq_true_eq] at h
        obtain ⟨rfl, hlength⟩ := h
        exact ⟨xs, o, rfl, hlength⟩
    | _ => cases h
  · rintro ⟨xs, o, rfl, hlength⟩
    simp [isChainOf, hlength]

/-- A clause is a chain of one operator only. -/
theorem symbol_eq_of_isChainOf {e : Expr} {op op' : Operator} (h : isChainOf e op = true)
    (h' : isChainOf e op' = true) : op.symbol = op'.symbol := by
  obtain ⟨xs, o, rfl, -⟩ := isChainOf_iff.mp h
  obtain ⟨ys, p, heq, -⟩ := isChainOf_iff.mp h'
  injection heq

theorem isChainOf_binary (left right : Expr) (op op' : Operator) :
    isChainOf (binary left op right) op' = (op.symbol == op'.symbol) := by
  simp [isChainOf, binary]

theorem appendOperand_of_chain {op : Operator} {xs : List Expr} {o : Option Span}
    (h : 2 ≤ xs.length) (right : Expr) :
    appendOperand (.clause op.symbol xs o) op right =
      .clause op.symbol (xs ++ [right]) (Span.cover? o right.origin) :=
  if_pos (isChainOf_iff.mpr ⟨xs, o, rfl, h⟩)

theorem appendOperand_of_not_chain {left : Expr} {op : Operator}
    (h : isChainOf left op = false) (right : Expr) :
    appendOperand left op right = binary left op right := by
  unfold appendOperand
  split
  · rw [if_neg (by simp [h])]
  · rfl

/-- What an operator joins is a chain of the operator. -/
theorem isChainOf_appendOperand (left right : Expr) (op : Operator) :
    isChainOf (appendOperand left op right) op = true := by
  cases hchain : isChainOf left op with
  | true =>
      obtain ⟨xs, o, rfl, hlength⟩ := isChainOf_iff.mp hchain
      rw [appendOperand_of_chain hlength]
      refine isChainOf_iff.mpr ⟨_, _, rfl, ?_⟩
      rw [List.length_append]
      omega
  | false => rw [appendOperand_of_not_chain hchain, isChainOf_binary, beq_self_eq_true]

end QueryFormula.Grammar
