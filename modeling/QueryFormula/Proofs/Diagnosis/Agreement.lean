import QueryFormula.Diagnosis.Diagnose
import QueryFormula.Proofs.Compile

/-!
# Diagnosis and compilation agree

A draft has no problem just when it compiles, its functions are called, and the
validator has nothing against what comes out.

The count of parentheses never speaks against a source that compiles: the tokens
of a phrase are balanced (`Phrase.balance_tokens`), by induction on the phrase.
-/

namespace QueryFormula

namespace Grammar

/-- Names do not count. -/
theorem weight_of_identifier {token : Token} (h : token.kind = .identifier) :
    token.weight = 0 := by
  simp [Token.weight, Token.operator?, h]

theorem OperatorToken.weight_opening (sign : OperatorToken [.openParenthesis]) :
    sign.token.weight = 1 := by
  simp [Token.weight, Token.operator?, sign.kind_eq]

theorem OperatorToken.weight_closing (sign : OperatorToken [.closeParenthesis]) :
    sign.token.weight = -1 := by
  simp [Token.weight, Token.operator?, sign.kind_eq]

/-- An operator that is no parenthesis does not count. -/
theorem OperatorToken.weight_eq_zero {ops : List Operator} (sign : OperatorToken ops)
    (hopening : .openParenthesis ∉ ops) (hclosing : .closeParenthesis ∉ ops) :
    sign.token.weight = 0 := by
  have hamong := sign.among
  unfold Token.weight
  rw [sign.operator_eq]
  split
  · rename_i h
    exact absurd (Option.some.inj h ▸ hamong) hopening
  · rename_i h
    exact absurd (Option.some.inj h ▸ hamong) hclosing
  · rfl

theorem weight_joiner {level : Level} (sign : OperatorToken level.joiners) :
    sign.token.weight = 0 :=
  sign.weight_eq_zero (by cases level <;> decide) (by cases level <;> decide)

mutual

/-- A phrase opens as many parentheses as it closes. -/
theorem Phrase.balance_tokens {level : Level} : (phrase : Phrase level) →
    parenthesisBalance phrase.tokens = 0
  | .literal token _ is => by simp [Phrase.tokens, Token.weight, Token.operator?, is]
  | .name token is => by simp [Phrase.tokens, weight_of_identifier is]
  | .emptyCall frame => by
      simp [Phrase.tokens, weight_of_identifier frame.identifier, frame.opening.weight_opening,
        frame.closing.weight_closing]
  | .call frame list => by
      simp [Phrase.tokens, weight_of_identifier frame.identifier, frame.opening.weight_opening,
        frame.closing.weight_closing, parenthesisBalance_append, list.balance_tokens]
  | .group opening inner closing => by
      simp [Phrase.tokens, opening.weight_opening, closing.weight_closing,
        parenthesisBalance_append, inner.balance_tokens]
  | .signed sign operand => by
      simp [Phrase.tokens, sign.weight_eq_zero, operand.balance_tokens]
  | .negated sign operand => by
      simp [Phrase.tokens, sign.weight_eq_zero, operand.balance_tokens]
  | .compared left sign right => by
      simp [Phrase.tokens, sign.weight_eq_zero, Operator.comparisons, parenthesisBalance_append,
        left.balance_tokens, right.balance_tokens]
  | .chain _ first links => by
      simp [Phrase.tokens, parenthesisBalance_append, first.balance_tokens, links.balance_tokens]

theorem Links.balance_tokens {level : Level} : (links : Links level) →
    parenthesisBalance links.tokens = 0
  | .nil => rfl
  | .cons sign operand links => by
      simp [Links.tokens, weight_joiner sign, parenthesisBalance_append,
        operand.balance_tokens, links.balance_tokens]

theorem Arguments.balance_tokens : (list : Arguments) → parenthesisBalance list.tokens = 0
  | .last argument => argument.balance_tokens
  | .cons argument comma others => by
      simp [Arguments.tokens, comma.weight_eq_zero, parenthesisBalance_append,
        argument.balance_tokens, others.balance_tokens]

end

end Grammar

/-- What parses is balanced. -/
theorem balance_of_parse {source : String} {tokens : List Token} {tree : Expr}
    (h : parse source tokens = .ok tree) : parenthesisBalance tokens = 0 := by
  obtain ⟨phrase, rfl, _⟩ := exists_phrase_of_parse h
  exact phrase.balance_tokens

/-- What compiles is balanced. -/
theorem balance_of_compile {σ : Type} [Lookup σ] {context : Context σ} {source : String}
    {clause : Expr}
    (h : compile context source = .ok clause) :
    parenthesisBalance (tokenize source).tokens = 0 := by
  obtain ⟨tree, _, htree, _⟩ := compile_eq_ok_iff.mp h
  exact balance_of_parse (readTree_eq_ok_iff.mp htree).2

/-- No token but the last is the bare name of a function with declared arguments
and lacks an opening parenthesis behind it. -/
def CallsFunctions (tokens : List Token) : Prop :=
  ∀ before token next after, tokens = before ++ token :: next :: after →
    token.kind = .identifier → token.isBracketed = false →
    ∀ s, functionNamed? token.text = some s → s.parameters ≠ [] →
      next.isOperator .openParenthesis

theorem Token.wantsArguments_iff {token : Token} :
    token.wantsArguments ↔ token.kind = .identifier ∧ token.isBracketed = false ∧
      ∃ s, functionNamed? token.text = some s ∧ s.parameters ≠ [] := by
  simp [Token.wantsArguments, Option.any_eq_true, and_assoc]

/-- A list of tokens calls its functions if its first token is in order and the
others do. -/
theorem callsFunctions_cons_cons {token next : Token} {rest : List Token} :
    CallsFunctions (token :: next :: rest) ↔
      (token.wantsArguments → next.isOperator .openParenthesis) ∧
        CallsFunctions (next :: rest) := by
  constructor
  · intro h
    refine ⟨fun hwants => ?_, fun before t n after heq => ?_⟩
    · obtain ⟨hkind, hbare, s, hs, hparameters⟩ := Token.wantsArguments_iff.mp hwants
      exact h [] token next rest rfl hkind hbare s hs hparameters
    · exact h (token :: before) t n after (congrArg (token :: ·) heq)
  · rintro ⟨hfirst, hothers⟩ before t n after heq hkind hbare s hs hparameters
    cases before with
    | nil =>
        simp only [List.nil_append, List.cons.injEq] at heq
        obtain ⟨rfl, rfl, rfl⟩ := heq
        exact hfirst (Token.wantsArguments_iff.mpr ⟨hkind, hbare, s, hs, hparameters⟩)
    | cons first before =>
        exact hothers before t n after (List.cons.inj heq).2 hkind hbare s hs hparameters

theorem uncalledFunction?_eq_none_iff {tokens : List Token} :
    uncalledFunction? tokens = none ↔ CallsFunctions tokens := by
  fun_induction uncalledFunction? tokens with
  | case1 token next rest huncalled =>
      rw [callsFunctions_cons_cons]
      simp only [Bool.and_eq_true, Bool.not_eq_true'] at huncalled
      simp [huncalled]
  | case2 token next rest hcalled ih =>
      rw [callsFunctions_cons_cons, ih]
      simp only [Bool.and_eq_true, Bool.not_eq_true', not_and, Bool.not_eq_false] at hcalled
      exact ⟨fun h => ⟨hcalled, h⟩, And.right⟩
  | case3 tokens hshort =>
      refine ⟨fun _ before token next after heq => ?_, fun _ => rfl⟩
      subst heq
      cases before with
      | nil => exact (hshort token next after rfl).elim
      | cons first before => cases before <;> exact (hshort _ _ _ rfl).elim

/-- The tokens show no problem just when they were all read, functions are
called, and parentheses match. -/
theorem tokenProblem?_eq_none_iff {tokenized : Scanned} :
    tokenProblem? tokenized = none ↔
      tokenized.error = none ∧ CallsFunctions tokenized.tokens ∧
        parenthesisBalance tokenized.tokens = 0 := by
  rw [← uncalledFunction?_eq_none_iff]
  unfold tokenProblem?
  cases herror : tokenized.error with
  | some error => simp
  | none =>
      cases hcall : uncalledFunction? tokenized.tokens with
      | some token => simp
      | none => simp

/-- The validator is asked about what the source compiles to, once the tokens show
no problem. -/
theorem Draft.inquiry_eq_ok_iff {σ : Type} [Lookup σ] {draft : Draft σ} {inquiry : Inquiry} :
    draft.inquiry = .ok inquiry ↔
      tokenProblem? (tokenize draft.source) = none ∧
        ∃ clause, compile draft.context draft.source = .ok clause ∧
          inquiry = ⟨draft.context.stage, draft.context.mode, clause, draft.index⟩ := by
  unfold Draft.inquiry
  cases hproblem : tokenProblem? (tokenize draft.source) with
  | some problem => simp
  | none =>
      cases hcompile : compile draft.context draft.source with
      | ok clause => simp [eq_comm]
      | error error => simp

theorem problemOf?_eq_none_iff {verdict : Verdict} :
    Draft.problemOf? verdict = none ↔ verdict = .valid := by
  cases verdict <;> simp [Draft.problemOf?]

theorem Draft.diagnose_eq_none_iff_inquiry {σ : Type} [Lookup σ] {draft : Draft σ}
    {validator : Option Validator} (nonempty : draft.source ≠ "") :
    draft.diagnose validator = none ↔
      ∃ inquiry, draft.inquiry = .ok inquiry ∧ ∀ ask ∈ validator, ask inquiry = .valid := by
  unfold Draft.diagnose
  rw [if_neg nonempty]
  cases hinquiry : draft.inquiry with
  | error problem => simp
  | ok inquiry => cases validator <;> simp [problemOf?_eq_none_iff]

/-- **Diagnosis and compilation agree.**  A draft has no problem just when its
source compiles, calls its functions, and the validator, if there is one, accepts
the result.  The parentheses of a source that compiles match. -/
theorem diagnose_eq_none_iff {σ : Type} [Lookup σ] (draft : Draft σ)
    (validator : Option Validator) (nonempty : draft.source ≠ "") :
    (draft.diagnose validator = none ↔
      ∃ clause, compile draft.context draft.source = .ok clause ∧
        CallsFunctions (tokenize draft.source).tokens ∧
        ∀ ask ∈ validator,
          ask ⟨draft.context.stage, draft.context.mode, clause, draft.index⟩ = .valid) ∧
    (∀ clause, compile draft.context draft.source = .ok clause →
      parenthesisBalance (tokenize draft.source).tokens = 0) := by
  refine ⟨?_, fun _ => balance_of_compile⟩
  rw [Draft.diagnose_eq_none_iff_inquiry nonempty]
  constructor
  · rintro ⟨inquiry, hinquiry, hvalid⟩
    obtain ⟨hproblem, clause, hcompile, rfl⟩ := Draft.inquiry_eq_ok_iff.mp hinquiry
    exact ⟨clause, hcompile, (tokenProblem?_eq_none_iff.mp hproblem).2.1, hvalid⟩
  · rintro ⟨clause, hcompile, hcalls, hvalid⟩
    obtain ⟨tree, _, htree, _⟩ := compile_eq_ok_iff.mp hcompile
    have hproblem : tokenProblem? (tokenize draft.source) = none :=
      tokenProblem?_eq_none_iff.mpr
        ⟨(readTree_eq_ok_iff.mp htree).1, hcalls, balance_of_compile hcompile⟩
    exact ⟨_, Draft.inquiry_eq_ok_iff.mpr ⟨hproblem, clause, hcompile, rfl⟩, hvalid⟩

/-- A filter, for a database without any special feature. -/
def nullFilter : Draft where
  source := "NOT isNull([Total]) OR (1 + 2) * 3 = 9"
  context := { mode := .boolean, stage := 0, ownName := none, schema := none }
  index := none

/-- The filter has no problem, so it compiles and its parentheses match. -/
theorem compile_nullFilter :
    nullFilter.source ≠ "" ∧ ∃ clause,
      compile nullFilter.context nullFilter.source = .ok clause ∧
        CallsFunctions (tokenize nullFilter.source).tokens ∧
        Validator.ofFeatures (some []) ⟨0, .boolean, clause, none⟩ = .valid ∧
        parenthesisBalance (tokenize nullFilter.source).tokens = 0 := by
  have hsource : nullFilter.source ≠ "" := by decide
  obtain ⟨hagree, hbalance⟩ :=
    diagnose_eq_none_iff nullFilter (some (.ofFeatures (some []))) hsource
  obtain ⟨clause, hcompile, hcalls, hvalid⟩ := hagree.mp (by decide +kernel)
  exact ⟨hsource, clause, hcompile, hcalls, hvalid _ rfl, hbalance clause hcompile⟩

end QueryFormula
