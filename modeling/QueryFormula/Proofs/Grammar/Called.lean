import QueryFormula.Proofs.Expr.Mentions
import QueryFormula.Proofs.Grammar.Recognition

/-!
# Calls

A call is seen on the tokens: a bare name, and directly behind it an opening
parenthesis.  Of a call of a function that nobody knows the tree has the clause, with the
text of the name as its operator and the place from the name on
(`hasCall_of_parse`): chains of operators, which alone give a clause another place, are
clauses of the catalog.
-/

namespace QueryFormula

/-- The names that are called. -/
def calledNames : List Token → List Token
  | name :: opening :: rest =>
    (if name.kind = .identifier ∧ !name.isBracketed ∧ opening.isOperator .openParenthesis
      then [name] else []) ++ calledNames (opening :: rest)
  | _ => []

/-- The name is neither that of a function nor that of a clause. -/
def Token.IsUnknown (name : Token) : Prop :=
  clauseNamed? name.text = none ∧ signature? name.text = none

/-- The tree has the clause of a call of this name. -/
def Expr.HasCall (name : Token) (e : Expr) : Prop :=
  ∃ close : Span, e.Mentions name.text (name.span.cover close)

namespace Grammar

/-- Nothing is called by an operator. -/
theorem calledNames_cons_of_operator {token : Token} {op : Operator} (h : token.operator? = some op)
    (rest : List Token) : calledNames (token :: rest) = calledNames rest := by
  have hkind : token.kind ≠ .identifier := by
    intro hname
    rw [Token.operator?, hname] at h
    cases h
  cases rest with
  | nil => rfl
  | cons next rest => rw [calledNames, if_neg fun hcall => hkind hcall.1, List.nil_append]

/-- No opening parenthesis comes first, so that a name in front of it is not called. -/
def ContinuesNoCall (tokens : List Token) : Prop :=
  ∀ next ∈ tokens.head?, next.isOperator .openParenthesis = false

theorem calledNames_append {after : List Token} (h : ContinuesNoCall after) (tokens : List Token) :
    calledNames (tokens ++ after) = calledNames tokens ++ calledNames after := by
  induction tokens with
  | nil => rfl
  | cons token tokens ih =>
      cases tokens with
      | nil =>
          cases after with
          | nil => rfl
          | cons next after =>
              have hnext : next.isOperator .openParenthesis = false := h next rfl
              rw [List.singleton_append, calledNames]
              simp [hnext, calledNames]
      | cons next tokens =>
          rw [List.cons_append, List.cons_append, calledNames, calledNames, ← List.cons_append, ih,
            List.append_assoc]

/-- The operators that chain operands are clauses of the catalog. -/
theorem isSome_signature?_of_mem_joiners {level : Level} {op : Operator}
    (h : op ∈ level.joiners) : (signature? op.symbol).isSome = true := by
  have hall : ∀ op ∈ level.joiners, (signature? op.symbol).isSome = true := by
    cases level <;> decide
  exact hall op h

section HasCall

variable {name : Token} {left right : Expr}

theorem hasCall_of_operand {op : String} {xs : List Expr} {o : Option Span} {x : Expr}
    (hx : x ∈ xs) (h : x.HasCall name) : (Expr.clause op xs o).HasCall name := by
  obtain ⟨close, hmentions⟩ := h
  exact ⟨close, (Expr.mentions_clause op xs o).mpr (.inr ⟨x, hx, hmentions⟩)⟩

theorem hasCall_binary (op : Operator) (h : left.HasCall name ∨ right.HasCall name) :
    (binary left op right).HasCall name := by
  rcases h with hleft | hright
  · exact hasCall_of_operand List.mem_cons_self hleft
  · exact hasCall_of_operand (List.mem_cons_of_mem _ List.mem_cons_self) hright

theorem hasCall_unary (op : Operator) (sign : Span) (h : left.HasCall name) :
    (unary op sign left).HasCall name := by
  obtain ⟨close, hmentions⟩ := h
  unfold unary
  split
  · exact absurd hmentions (Expr.not_mentions_literal _ _)
  · exact absurd hmentions (Expr.not_mentions_literal _ _)
  · exact hasCall_of_operand List.mem_cons_self ⟨close, hmentions⟩

/-- A chain that gets one operand more gets another place, but a chain is no call. -/
theorem hasCall_appendOperand {op : Operator} (hop : (signature? op.symbol).isSome = true)
    (hname : name.IsUnknown) (h : left.HasCall name ∨ right.HasCall name) :
    (appendOperand left op right).HasCall name := by
  unfold appendOperand
  split
  · rename_i f xs o
    split
    · rename_i hchain
      rcases h with ⟨close, hleft⟩ | hright
      · rcases (Expr.mentions_clause f xs o).mp hleft with ⟨rfl, -⟩ | ⟨x, hx, hmentions⟩
        · -- a chain has the operator for its name, which is known
          rw [isChainOf, Bool.and_eq_true, beq_iff_eq] at hchain
          rw [← hchain.1, hname.2] at hop
          cases hop
        · exact hasCall_of_operand (List.mem_append_left _ hx) ⟨close, hmentions⟩
      · exact hasCall_of_operand (List.mem_append_right _ List.mem_cons_self) hright
    · exact hasCall_binary op h
  · exact hasCall_binary op h

end HasCall

theorem OperatorToken.continuesNoCall {ops : List Operator} (sign : OperatorToken ops)
    (hops : .openParenthesis ∉ ops) (rest : List Token) :
    ContinuesNoCall (sign.token :: rest) := by
  rintro _ ⟨⟩
  rw [Token.isOperator, sign.operator_eq]
  refine Bool.eq_false_iff.mpr fun heq => hops ?_
  have hop : sign.op = .openParenthesis := by simpa using heq
  exact hop ▸ sign.among

theorem ContinuesNoCall.append {before after : List Token} (hbefore : ContinuesNoCall before)
    (hafter : ContinuesNoCall after) : ContinuesNoCall (before ++ after) := by
  cases before with
  | nil => exact hafter
  | cons token before => exact hbefore

/-- Behind an operand of a chain no parenthesis opens. -/
theorem Links.continuesNoCall {level : Level} (links : Links level) :
    ContinuesNoCall links.tokens := by
  cases links with
  | nil => exact fun _ hnext => by cases hnext
  | cons sign operand links => exact sign.continuesNoCall (by cases level <;> decide) _

/-- What is called in front of an operator, and what is called behind it. -/
theorem calledNames_around {ops : List Operator} (sign : OperatorToken ops)
    (hops : .openParenthesis ∉ ops) (before after : List Token) :
    calledNames (before ++ sign.token :: after) = calledNames before ++ calledNames after := by
  rw [calledNames_append (sign.continuesNoCall hops after),
    calledNames_cons_of_operator sign.operator_eq]

/-- What a call calls: the name itself, and what its arguments call. -/
theorem calledNames_call (frame : CallTokens) (inner : List Token) :
    calledNames (frame.name :: frame.opening.token :: (inner ++ [frame.closing.token])) =
      frame.name :: calledNames inner := by
  have hopens : frame.opening.token.isOperator .openParenthesis = true := by
    have hop : frame.opening.op = .openParenthesis := List.mem_singleton.mp frame.opening.among
    rw [Token.isOperator, frame.opening.operator_eq, hop]
    rfl
  have hclosing : calledNames (inner ++ [frame.closing.token]) = calledNames inner := by
    rw [calledNames_around frame.closing (by decide)]
    exact List.append_nil _
  rw [calledNames, if_pos ⟨frame.identifier, by simp [frame.bare], hopens⟩,
    calledNames_cons_of_operator frame.opening.operator_eq, hclosing]
  rfl

theorem hasCall_call (frame : CallTokens) (xs : List Expr) (h : frame.name.IsUnknown) :
    (call frame.name xs frame.closing.token.span).HasCall frame.name := by
  refine ⟨frame.closing.token.span, ?_⟩
  rw [call, h.1]
  exact (Expr.mentions_clause _ _ _).mpr (.inl ⟨rfl, rfl⟩)

mutual

/-- A phrase stands for a tree with all calls of functions that nobody knows. -/
theorem Phrase.hasCall_tree {level : Level} {name : Token} (hname : name.IsUnknown) :
    (phrase : Phrase level) → name ∈ calledNames phrase.tokens → phrase.tree.HasCall name
  | .literal _ _ _, h => by cases h
  | .name _ _, h => by cases h
  | .emptyCall frame, h => by
      have htokens := calledNames_call frame []
      rw [List.nil_append] at htokens
      rw [Phrase.tokens, htokens] at h
      rcases List.mem_cons.mp h with rfl | h
      · exact hasCall_call frame [] hname
      · cases h
  | .call frame list, h => by
      rw [Phrase.tokens, calledNames_call] at h
      rcases List.mem_cons.mp h with rfl | h
      · exact hasCall_call frame _ hname
      · obtain ⟨x, hx, hcall⟩ := list.hasCall_trees hname h
        exact hasCall_of_operand hx hcall
  | .group opening inner closing, h => by
      rw [Phrase.tokens, calledNames_cons_of_operator opening.operator_eq,
        calledNames_around closing (by decide)] at h
      exact inner.hasCall_tree hname (List.mem_append.mp h |>.resolve_right (by simp [calledNames]))
  | .signed sign operand, h => by
      rw [Phrase.tokens, calledNames_cons_of_operator sign.operator_eq] at h
      exact hasCall_unary _ _ (operand.hasCall_tree hname h)
  | .negated sign operand, h => by
      rw [Phrase.tokens, calledNames_cons_of_operator sign.operator_eq] at h
      exact hasCall_unary _ _ (operand.hasCall_tree hname h)
  | .compared left sign right, h => by
      rw [Phrase.tokens, calledNames_around sign (by decide)] at h
      exact hasCall_binary _
        ((List.mem_append.mp h).imp (left.hasCall_tree hname) (right.hasCall_tree hname))
  | .chain _ first links, h => by
      rw [Phrase.tokens, calledNames_append links.continuesNoCall] at h
      exact links.hasCall_extend hname
        ((List.mem_append.mp h).imp (first.hasCall_tree hname) id)

theorem Links.hasCall_extend {level : Level} {name : Token} (hname : name.IsUnknown)
    {left : Expr} : (links : Links level) →
      (left.HasCall name ∨ name ∈ calledNames links.tokens) → (links.extend left).HasCall name
  | .nil, h => h.resolve_right (by simp [Links.tokens, calledNames])
  | .cons sign operand links, h => by
      rw [Links.tokens, calledNames_cons_of_operator sign.operator_eq,
        calledNames_append links.continuesNoCall, List.mem_append] at h
      have hknown := isSome_signature?_of_mem_joiners sign.among
      refine links.hasCall_extend hname ?_
      rcases h with hleft | hoperand | hlinks
      · exact .inl (hasCall_appendOperand hknown hname (.inl hleft))
      · exact .inl (hasCall_appendOperand hknown hname (.inr (operand.hasCall_tree hname hoperand)))
      · exact .inr hlinks

theorem Arguments.hasCall_trees {name : Token} (hname : name.IsUnknown) :
    (list : Arguments) → name ∈ calledNames list.tokens → ∃ x ∈ list.trees, x.HasCall name
  | .last argument, h => ⟨_, List.mem_singleton_self _, argument.hasCall_tree hname h⟩
  | .cons argument comma others, h => by
      rw [Arguments.tokens, calledNames_around comma (by decide), List.mem_append] at h
      rcases h with hfirst | hothers
      · exact ⟨_, List.mem_cons_self, argument.hasCall_tree hname hfirst⟩
      · obtain ⟨x, hx, hcall⟩ := others.hasCall_trees hname hothers
        exact ⟨x, List.mem_cons_of_mem _ hx, hcall⟩

end

end Grammar

/-- **A call of a function that nobody knows is seen in the tree.** -/
theorem hasCall_of_parse {source : String} {tokens : List Token} {tree : Expr}
    (h : parse source tokens = .ok tree) {name : Token} (hname : name.IsUnknown)
    (hcalled : name ∈ calledNames tokens) : tree.HasCall name := by
  obtain ⟨phrase, rfl, rfl, -⟩ := exists_phrase_of_parse h
  exact phrase.hasCall_tree hname hcalled

end QueryFormula
