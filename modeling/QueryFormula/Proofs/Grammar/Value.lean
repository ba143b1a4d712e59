import QueryFormula.Proofs.Expr.Value
import QueryFormula.Proofs.Grammar.Joining
import QueryFormula.Proofs.Grammar.RawTree
import QueryFormula.Proofs.Token.Alone

/-!
# Flattening preserves meaning

A run of one operator becomes one flat clause, whether its operands stood in parentheses or
not, and a minus sign goes into a number.  Neither changes what a formula means: the tree of a
source is worth what its derivation is worth, in which every group is a value of its own and
every operator joins two values (`value_of_readTree`).

A clause of an operator tells only by the number of its operands whether it is a chain or a
sign, and by its name alone that it is no call.  The scanner sees to the latter: no name is
spelled like an operator.
-/

namespace QueryFormula

universe u

namespace Operator

/-- The operators that build clauses. -/
def operators : List Operator :=
  [plus, minus, star, slash, not, and, or] ++ comparisons

/-- The operator that builds the clauses of this name. -/
def named? (name : String) : Option Operator :=
  operators.find? fun op => op.symbol == name

theorem named?_symbol {op : Operator} (h : op ∈ operators) : named? op.symbol = some op := by
  cases op <;> first | rfl | exact absurd h (by decide)

theorem eq_symbol_of_named? {name : String} {op : Operator} (h : named? name = some op) :
    op ∈ operators ∧ name = op.symbol :=
  ⟨List.mem_of_find?_eq_some h, (beq_iff_eq.mp (List.find?_some h :)).symm⟩

/-- The text of an operator is scanned as the operator. -/
theorem scan_symbol {op : Operator} {c : Char} {cs : List Char} (h : op.symbol.toList = c :: cs) :
    scan c cs = .token (.operator op) (c :: cs) [] := by
  cases op <;> cases h <;> rfl

/-- No function is compiled to a clause of operators. -/
theorem named?_of_clauseNamed? {function name : String} (h : clauseNamed? function = some name) :
    named? name = none := by
  have hrows : ∀ s ∈ catalog, s.isNamed = true →
      (s.displayName.map Char.toLower ∈ ["and", "or", "not"] ∨ named? s.name = none) := by
    decide +kernel
  unfold clauseNamed? at h
  dsimp only at h
  split at h
  · cases h
  · rename_i hkeyword
    obtain ⟨s, hfind, rfl⟩ := Option.map_eq_some_iff.mp h
    obtain ⟨hnamed, hkey⟩ := Bool.and_eq_true_iff.mp (List.find?_some hfind :)
    refine (hrows s (List.mem_of_find?_eq_some hfind) hnamed).resolve_left fun hmem => ?_
    rw [beq_iff_eq.mp hkey] at hmem
    exact hkeyword (by simpa using hmem)

end Operator

/-- If the token is a name, then the clause that it calls is none of an operator. -/
def Token.CallsNoOperator (token : Token) : Prop :=
  token.kind = .identifier → Operator.named? ((clauseNamed? token.text).getD token.text) = none

/-- A name that is scanned is not spelled like an operator. -/
theorem callsNoOperator_of_mem_tokenize {source : String} {token : Token}
    (h : token ∈ (tokenize source).tokens) : token.CallsNoOperator := by
  intro hkind
  cases hclause : clauseNamed? token.text with
  | some name => exact Operator.named?_of_clauseNamed? hclause
  | none =>
      cases hnamed : Operator.named? token.text with
      | none => exact hnamed
      | some op =>
          obtain ⟨c, cs, hchars, hscan⟩ := scan_of_mem_tokenize source token h
          have hsymbol := Operator.scan_symbol ((Operator.eq_symbol_of_named? hnamed).2 ▸ hchars)
          injection hsymbol.symm.trans hscan with hoperator
          cases hoperator.trans hkind

/-! ### Interpretations -/

/-- An algebra for everything but the operators, whose clauses are the called functions, and
a meaning of the operators with one operand and with two. -/
structure Interpretation (α : Type u) extends Algebra α where
  unary : Operator → α → α
  binary : Operator → α → α → α

namespace Interpretation

variable {α : Type u} (I : Interpretation α)

/-- An operator on one value, or from left to right on several. -/
def operate (op : Operator) : List α → α
  | [] => I.clause op.symbol []
  | [x] => I.unary op x
  | x :: y :: ys => (y :: ys).foldl (I.binary op) x

/-- The meaning of the clauses of trees. -/
def ofClauses : Algebra α :=
  { I.toAlgebra with
    clause := fun name xs =>
      match Operator.named? name with
      | some op => I.operate op xs
      | none => I.clause name xs }

theorem clause_symbol {op : Operator} (h : op ∈ Operator.operators) (xs : List α) :
    I.ofClauses.clause op.symbol xs = I.operate op xs := by
  simp only [ofClauses, Operator.named?_symbol h]

theorem clause_of_named?_none {name : String} (h : Operator.named? name = none) (xs : List α) :
    I.ofClauses.clause name xs = I.clause name xs := by
  simp only [ofClauses, h]

/-- **One operand more** is joined to the value of the others. -/
theorem operate_append (op : Operator) {xs : List α} (h : 2 ≤ xs.length) (x : α) :
    I.operate op (xs ++ [x]) = I.binary op (I.operate op xs) x := by
  match xs, h with
  | first :: second :: others, _ =>
    simp only [List.cons_append, operate]
    rw [← List.cons_append, List.foldl_append, List.foldl_cons, List.foldl_nil]

/-- A minus sign on a number is the negated number. -/
structure NegatesNumbers : Prop where
  number (x : Decimal) : I.unary .minus (I.literal (.number x)) = I.literal (.number x.negate)
  float (x : Double) : I.unary .minus (I.literal (.float x)) = I.literal (.float x.negate)

end Interpretation

/-! ### The value of a derivation -/

namespace Grammar

section Value

variable {α : Type u} (I : Interpretation α)

mutual

/-- What a derivation is worth: each group by itself, each operator on two values. -/
def Phrase.value {level : Level} : Phrase level → α
  | .literal _ value _ => I.literal value
  | .name token _ =>
    I.reference .dimension
      (if token.isBracketed then Bracketed.name token.text else token.text)
  | .emptyCall frame => I.clause ((clauseNamed? frame.name.text).getD frame.name.text) []
  | .call frame arguments =>
    I.clause ((clauseNamed? frame.name.text).getD frame.name.text) arguments.values
  | .group _ inner _ => inner.value
  | .signed sign operand | .negated sign operand => I.unary sign.op operand.value
  | .compared left sign right => I.binary sign.op left.value right.value
  | .chain _ first links => links.valueFrom first.value

/-- A value, and the operands of a chain joined to it one by one. -/
def Links.valueFrom {level : Level} (left : α) : Links level → α
  | .nil => left
  | .cons sign operand links => links.valueFrom (I.binary sign.op left operand.value)

/-- The values of arguments. -/
def Arguments.values : Arguments → List α
  | .last argument => [argument.value]
  | .cons argument _ others => argument.value :: others.values

end

end Value

/-! ### What the rules build -/

section Node

variable {α : Type u} (I : Interpretation α)

theorem value_binary (left right : Expr) {op : Operator} (h : op ∈ Operator.operators) :
    (binary left op right).value I.ofClauses =
      I.binary op (left.value I.ofClauses) (right.value I.ofClauses) := by
  rw [binary, Expr.value_clause, I.clause_symbol h]
  rfl

theorem value_appendOperand (left right : Expr) {op : Operator} (h : op ∈ Operator.operators) :
    (appendOperand left op right).value I.ofClauses =
      I.binary op (left.value I.ofClauses) (right.value I.ofClauses) := by
  by_cases hchain : isChainOf left op = true
  · obtain ⟨xs, o, rfl, hlength⟩ := isChainOf_iff.mp hchain
    rw [appendOperand_of_chain hlength, Expr.value_clause, Expr.value_clause, I.clause_symbol h,
      I.clause_symbol h, List.map_append, List.map_singleton,
      I.operate_append op (by rw [List.length_map]; exact hlength)]
  · rw [appendOperand_of_not_chain (Bool.eq_false_iff.mpr hchain), value_binary I left right h]

/-- A sign is an operator on one value, also where it goes into a number. -/
theorem value_unary (hI : I.NegatesNumbers) {op : Operator} (h : op ∈ Operator.operators)
    (sign : Span) (operand : Expr) :
    (unary op sign operand).value I.ofClauses = I.unary op (operand.value I.ofClauses) := by
  unfold unary
  split
  · exact (hI.number _).symm
  · exact (hI.float _).symm
  · rw [Expr.value_clause, I.clause_symbol h]
    rfl

theorem value_call {name : Token} (hkind : name.kind = .identifier) (h : name.CallsNoOperator)
    (operands : List Expr) (close : Span) :
    (call name operands close).value I.ofClauses =
      I.clause ((clauseNamed? name.text).getD name.text)
        (operands.map (Expr.value I.ofClauses)) := by
  rw [call, Expr.value_clause, I.clause_of_named?_none (h hkind)]

theorem joiners_are_operators (level : Level) :
    ∀ op ∈ level.joiners, op ∈ Operator.operators := by
  cases level <;> decide

theorem comparisons_are_operators : ∀ op ∈ Operator.comparisons, op ∈ Operator.operators := by
  decide

theorem signs_are_operators : ∀ op ∈ [Operator.plus, .minus], op ∈ Operator.operators := by
  decide

theorem not_is_operator : ∀ op ∈ [Operator.not], op ∈ Operator.operators := by
  decide

end Node

section Value

variable {α : Type u} {I : Interpretation α}

mutual

/-- **The tree of a derivation** is worth what the derivation is worth. -/
theorem Phrase.value_tree (hI : I.NegatesNumbers) : {level : Level} → (phrase : Phrase level) →
    (∀ token ∈ phrase.tokens, token.CallsNoOperator) →
    phrase.tree.value I.ofClauses = phrase.value I
  | _, .literal _ _ _, _ => rfl
  | _, .name _ _, _ => rfl
  | _, .emptyCall frame, h =>
      value_call I frame.identifier (h _ List.mem_cons_self) [] frame.closing.token.span
  | _, .call frame list, h => by
      obtain ⟨hname, h⟩ := List.forall_mem_cons.mp h
      obtain ⟨-, h⟩ := List.forall_mem_cons.mp h
      rw [Phrase.tree, value_call I frame.identifier hname,
        list.values_trees hI (fun token htoken => h token (List.mem_append_left _ htoken)),
        Phrase.value]
  | _, .group _ inner _, h => by
      obtain ⟨-, h⟩ := List.forall_mem_cons.mp h
      exact inner.value_tree hI fun token htoken => h token (List.mem_append_left _ htoken)
  | _, .signed sign operand, h => by
      obtain ⟨-, h⟩ := List.forall_mem_cons.mp h
      rw [Phrase.tree, value_unary I hI (signs_are_operators _ sign.among),
        operand.value_tree hI h, Phrase.value]
  | _, .negated sign operand, h => by
      obtain ⟨-, h⟩ := List.forall_mem_cons.mp h
      rw [Phrase.tree, value_unary I hI (not_is_operator _ sign.among),
        operand.value_tree hI h, Phrase.value]
  | _, .compared left sign right, h => by
      obtain ⟨hleft, h⟩ := List.forall_mem_append.mp h
      obtain ⟨-, hright⟩ := List.forall_mem_cons.mp h
      rw [Phrase.tree, value_binary I _ _ (comparisons_are_operators _ sign.among),
        left.value_tree hI hleft, right.value_tree hI hright, Phrase.value]
  | _, .chain _ first links, h => by
      obtain ⟨hfirst, hlinks⟩ := List.forall_mem_append.mp h
      rw [Phrase.tree, links.value_extend hI hlinks, first.value_tree hI hfirst, Phrase.value]

theorem Links.value_extend (hI : I.NegatesNumbers) : {level : Level} → (links : Links level) →
    {left : Expr} → (∀ token ∈ links.tokens, token.CallsNoOperator) →
    (links.extend left).value I.ofClauses = links.valueFrom I (left.value I.ofClauses)
  | _, .nil, _, _ => rfl
  | level, .cons sign operand links, left, h => by
      obtain ⟨-, h⟩ := List.forall_mem_cons.mp h
      obtain ⟨hoperand, hlinks⟩ := List.forall_mem_append.mp h
      rw [Links.extend, links.value_extend hI hlinks,
        value_appendOperand I _ _ (joiners_are_operators level _ sign.among),
        operand.value_tree hI hoperand, Links.valueFrom]

theorem Arguments.values_trees (hI : I.NegatesNumbers) : (list : Arguments) →
    (∀ token ∈ list.tokens, token.CallsNoOperator) →
    list.trees.map (Expr.value I.ofClauses) = list.values I
  | .last argument, h => by
      rw [Arguments.trees, List.map_singleton, argument.value_tree hI h, Arguments.values]
  | .cons argument _ others, h => by
      obtain ⟨hargument, h⟩ := List.forall_mem_append.mp h
      obtain ⟨-, hothers⟩ := List.forall_mem_cons.mp h
      rw [Arguments.trees, List.map_cons, argument.value_tree hI hargument,
        others.values_trees hI hothers, Arguments.values]

end

end Value

end Grammar

open Grammar

/-- **Flattening preserves meaning.**  The tokens of a source that is read have a derivation,
and whatever derives them is worth the same as the tree. -/
theorem value_of_readTree {source : String} {tree : Expr} (h : readTree source = .ok tree)
    {α : Type u} {I : Interpretation α} (hI : I.NegatesNumbers) :
    (∃ phrase : Phrase .disjunction, phrase.tokens = (tokenize source).tokens) ∧
    ∀ phrase : Phrase .disjunction, phrase.tokens = (tokenize source).tokens →
      tree.value I.ofClauses = phrase.value I := by
  have hparse := (readTree_eq_ok_iff.mp h).2
  obtain ⟨phrase, htokens, -⟩ := exists_phrase_of_parse hparse
  refine ⟨⟨phrase, htokens⟩, fun phrase htokens => ?_⟩
  rw [← htokens] at hparse
  obtain rfl := phrase.tree_eq_of_parse hparse
  exact phrase.value_tree hI fun token htoken =>
    callsNoOperator_of_mem_tokenize (htokens ▸ htoken)

/-- Whole numbers, of which only differences are known. -/
def Interpretation.integers : Interpretation Int where
  literal
    | .number x => x.numerator
    | _ => 0
  reference _ _ := 0
  bound _ := 0
  clause _ _ := 0
  options _ := 0
  pairs _ := 0
  unary
    | .minus => fun x => -x
    | _ => id
  binary
    | .minus => fun x y => x - y
    | _ => fun x _ => x

theorem Interpretation.integers_negatesNumbers : integers.NegatesNumbers where
  number x := by
    change -x.numerator = x.negate.numerator
    cases hsign : x.negative <;> simp [Decimal.numerator, Decimal.negate, hsign]
  float _ := rfl

/-- The first group is no part of the chain behind it, and the second minus is a sign. -/
theorem value_of_readTree_difference :
    ∃ tree, readTree "1 - (2 - 3) - -4" = .ok tree ∧
      tree.value Interpretation.integers.ofClauses = 6 ∧
      (∃ phrase : Phrase .disjunction, phrase.tokens = (tokenize "1 - (2 - 3) - -4").tokens) ∧
      ∀ phrase : Phrase .disjunction, phrase.tokens = (tokenize "1 - (2 - 3) - -4").tokens →
        tree.value Interpretation.integers.ofClauses = phrase.value .integers := by
  obtain ⟨tree, htree, hvalue⟩ := exists_ok_of_any
    (show (readTree "1 - (2 - 3) - -4").toOption.any
      (fun tree => tree.value Interpretation.integers.ofClauses == 6) = true by decide +kernel)
  exact ⟨tree, htree, beq_iff_eq.mp hvalue,
    value_of_readTree htree Interpretation.integers_negatesNumbers⟩

end QueryFormula
