import QueryFormula.Proofs.Diagnosis.Agreement

/-!
# Parentheses and their partners

A phrase closes every parenthesis that it opens and no other (`Phrase.openBehind?_tokens`),
so what is parsed has a partner for each (`parenthesesMatch_of_parse`).  That is more than
the balance tells, which is also zero where a parenthesis is closed before one is opened.

Parentheses around a piece of a phrase are in the way of reading the piece alone: if the
piece has partners for all of its own, there are none around it (`eq_nil_of_opened`,
`eq_nil_of_closed`).
-/

namespace QueryFormula

open Grammar

/-- How many parentheses are open behind a token where so many are open in front of it.
There is no answer if it closes one that was not opened. -/
def openAfter? (depth : Nat) (token : Token) : Option Nat :=
  match token.operator? with
  | some .openParenthesis => some (depth + 1)
  | some .closeParenthesis => if depth = 0 then none else some (depth - 1)
  | _ => some depth

/-- The same for some tokens. -/
def openBehind? (depth : Nat) : List Token → Option Nat
  | [] => some depth
  | token :: tokens => (openAfter? depth token).bind (openBehind? · tokens)

/-- Every parenthesis has its partner among the tokens. -/
def ParenthesesMatch (tokens : List Token) : Prop :=
  openBehind? 0 tokens = some 0

instance (tokens : List Token) : Decidable (ParenthesesMatch tokens) :=
  inferInstanceAs (Decidable (openBehind? 0 tokens = some 0))

/-! ### Counting -/

section Counting

variable {token : Token} {tokens : List Token} {depth found : Nat}

theorem openBehind?_opening (h : token.operator? = some .openParenthesis) (depth : Nat) :
    openBehind? depth (token :: tokens) = openBehind? (depth + 1) tokens := by
  rw [openBehind?, openAfter?, h]
  rfl

theorem openBehind?_closing (h : token.operator? = some .closeParenthesis) (depth : Nat) :
    openBehind? (depth + 1) (token :: tokens) = openBehind? depth tokens := by
  rw [openBehind?, openAfter?, h]
  rfl

theorem openBehind?_closing_zero (h : token.operator? = some .closeParenthesis) :
    openBehind? 0 (token :: tokens) = none := by
  rw [openBehind?, openAfter?, h]
  rfl

/-- A token that is no parenthesis does not count. -/
theorem openBehind?_weightless (h : token.weight = 0) (depth : Nat) :
    openBehind? depth (token :: tokens) = openBehind? depth tokens := by
  have hopening : token.operator? ≠ some .openParenthesis := by
    intro heq
    rw [Token.weight, heq] at h
    exact absurd h (by decide)
  have hclosing : token.operator? ≠ some .closeParenthesis := by
    intro heq
    rw [Token.weight, heq] at h
    exact absurd h (by decide)
  have hafter : openAfter? depth token = some depth := by
    unfold openAfter?
    split
    · exact absurd ‹_› hopening
    · exact absurd ‹_› hclosing
    · rfl
  rw [openBehind?, hafter, Option.bind_some]

theorem openBehind?_append (depth : Nat) (front back : List Token) :
    openBehind? depth (front ++ back) = (openBehind? depth front).bind (openBehind? · back) := by
  induction front generalizing depth with
  | nil => rfl
  | cons token front ih => simp only [List.cons_append, openBehind?, ih, Option.bind_assoc]

theorem openAfter?_add (h : openAfter? depth token = some found) (more : Nat) :
    openAfter? (depth + more) token = some (found + more) := by
  unfold openAfter? at h ⊢
  split at h
  · cases h
    rw [Nat.add_right_comm]
  · split at h
    · cases h
    · cases h
      rw [if_neg (by omega)]
      congr 1
      omega
  · cases h
    rfl

/-- More parentheses in front are more parentheses behind. -/
theorem openBehind?_add (h : openBehind? depth tokens = some found) (more : Nat) :
    openBehind? (depth + more) tokens = some (found + more) := by
  induction tokens generalizing depth with
  | nil =>
      cases h
      rfl
  | cons token tokens ih =>
      obtain ⟨between, hafter, hbehind⟩ := Option.bind_eq_some_iff.mp h
      rw [openBehind?, openAfter?_add hafter, Option.bind_some]
      exact ih hbehind

/-- Tokens at other places have the same parentheses. -/
theorem openBehind?_map {f : Token → Token} (hf : ∀ token, (f token).operator? = token.operator?)
    (depth : Nat) (tokens : List Token) :
    openBehind? depth (tokens.map f) = openBehind? depth tokens := by
  induction tokens generalizing depth with
  | nil => rfl
  | cons token tokens ih =>
      rw [List.map_cons, openBehind?, openBehind?, openAfter?, openAfter?, hf]
      simp only [ih]

end Counting

/-! ### Parentheses around a piece -/

/-- Nothing but opening parentheses. -/
def AreOpening (tokens : List Token) : Prop :=
  ∀ token ∈ tokens, token.operator? = some .openParenthesis

/-- Nothing but closing parentheses. -/
def AreClosing (tokens : List Token) : Prop :=
  ∀ token ∈ tokens, token.operator? = some .closeParenthesis

section Around

variable {opens piece closes : List Token}

theorem AreOpening.openBehind? (h : AreOpening opens) (depth : Nat) :
    openBehind? depth opens = some (depth + opens.length) := by
  induction opens generalizing depth with
  | nil => rfl
  | cons token opens ih =>
      obtain ⟨htoken, hothers⟩ := List.forall_mem_cons.mp h
      rw [openBehind?_opening htoken, ih hothers, List.length_cons]
      congr 1
      omega

/-- If some piece needs none of the parentheses in front of it, there are none where they
have all their partners. -/
theorem eq_nil_of_opened {found : Nat} (hopens : AreOpening opens)
    (hwhole : ParenthesesMatch (opens ++ piece)) (hpiece : openBehind? 0 piece = some found) :
    opens = [] := by
  rw [ParenthesesMatch, openBehind?_append, hopens.openBehind?, Option.bind_some,
    openBehind?_add hpiece] at hwhole
  have hlength : found + opens.length = 0 := Option.some.inj hwhole
  exact List.length_eq_zero_iff.mp (by omega)

/-- Behind a piece with partners for all parentheses none is closed. -/
theorem eq_nil_of_closed (hcloses : AreClosing closes)
    (hwhole : ParenthesesMatch (piece ++ closes)) (hpiece : ParenthesesMatch piece) :
    closes = [] := by
  rw [ParenthesesMatch, openBehind?_append, hpiece, Option.bind_some] at hwhole
  cases closes with
  | nil => rfl
  | cons token closes =>
      rw [openBehind?_closing_zero (hcloses token List.mem_cons_self)] at hwhole
      cases hwhole

end Around

/-! ### Phrases -/

namespace Grammar

theorem OperatorToken.operator_single {op : Operator} (sign : OperatorToken [op]) :
    sign.token.operator? = some op := by
  rw [sign.operator_eq, List.mem_singleton.mp sign.among]

mutual

/-- A phrase leaves as many parentheses open as there were. -/
theorem Phrase.openBehind?_tokens {level : Level} (depth : Nat) : (phrase : Phrase level) →
    openBehind? depth phrase.tokens = some depth
  | .literal token _ is =>
      openBehind?_weightless (by simp [Token.weight, Token.operator?, is]) depth
  | .name token is => openBehind?_weightless (weight_of_identifier is) depth
  | .emptyCall frame => by
      rw [Phrase.tokens, openBehind?_weightless (weight_of_identifier frame.identifier),
        openBehind?_opening frame.opening.operator_single,
        openBehind?_closing frame.closing.operator_single, openBehind?]
  | .call frame list => by
      rw [Phrase.tokens, openBehind?_weightless (weight_of_identifier frame.identifier),
        openBehind?_opening frame.opening.operator_single, openBehind?_append,
        list.openBehind?_tokens (depth + 1), Option.bind_some,
        openBehind?_closing frame.closing.operator_single, openBehind?]
  | .group opening inner closing => by
      rw [Phrase.tokens, openBehind?_opening opening.operator_single, openBehind?_append,
        inner.openBehind?_tokens (depth + 1), Option.bind_some,
        openBehind?_closing closing.operator_single, openBehind?]
  | .signed sign operand => by
      rw [Phrase.tokens, openBehind?_weightless (sign.weight_eq_zero (by decide) (by decide)),
        operand.openBehind?_tokens depth]
  | .negated sign operand => by
      rw [Phrase.tokens, openBehind?_weightless (sign.weight_eq_zero (by decide) (by decide)),
        operand.openBehind?_tokens depth]
  | .compared left sign right => by
      rw [Phrase.tokens, openBehind?_append, left.openBehind?_tokens depth, Option.bind_some,
        openBehind?_weightless (sign.weight_eq_zero (by decide) (by decide)),
        right.openBehind?_tokens depth]
  | .chain _ first links => by
      rw [Phrase.tokens, openBehind?_append, first.openBehind?_tokens depth, Option.bind_some,
        links.openBehind?_tokens depth]

theorem Links.openBehind?_tokens {level : Level} (depth : Nat) : (links : Links level) →
    openBehind? depth links.tokens = some depth
  | .nil => rfl
  | .cons sign operand links => by
      rw [Links.tokens, openBehind?_weightless (weight_joiner sign), openBehind?_append,
        operand.openBehind?_tokens depth, Option.bind_some, links.openBehind?_tokens depth]

theorem Arguments.openBehind?_tokens (depth : Nat) : (list : Arguments) →
    openBehind? depth list.tokens = some depth
  | .last argument => argument.openBehind?_tokens depth
  | .cons argument comma others => by
      rw [Arguments.tokens, openBehind?_append, argument.openBehind?_tokens depth,
        Option.bind_some, openBehind?_weightless (comma.weight_eq_zero (by decide) (by decide)),
        others.openBehind?_tokens depth]

end

end Grammar

/-- **What is parsed** has a partner for every parenthesis. -/
theorem parenthesesMatch_of_parse {source : String} {tokens : List Token} {tree : Expr}
    (h : parse source tokens = .ok tree) : ParenthesesMatch tokens := by
  obtain ⟨phrase, rfl, -⟩ := exists_phrase_of_parse h
  exact phrase.openBehind?_tokens 0

end QueryFormula
