import QueryFormula.Proofs.Grammar.Phrase

/-!
# The rules of the grammar

`Level.read` tries one rule after the other.  There is an equation here for each rule, with what
the rule asks of the tokens in front as hypotheses.  One of them applies to any tokens, and what
a rule calls is a tighter level on the same tokens or any level on fewer; `Level.rule_induction`
is the induction that follows the rules.

What holds of reading is proved from these.  Nothing else opens `Level.read`.
-/

namespace QueryFormula

theorem Token.isOperator_iff {token : Token} {op : Operator} :
    token.isOperator op ↔ token.operator? = some op := by
  simp [Token.isOperator]

namespace Grammar

/-! ### Tokens among some operators -/

theorem operatorAmong?_eq_some_iff {ops : List Operator} {token : Token} {op : Operator} :
    operatorAmong? ops token = some op ↔ token.operator? = some op ∧ op ∈ ops := by
  simp [operatorAmong?, Option.filter_eq_some_iff]

theorem operatorAmong?_eq_none_iff {ops : List Operator} {token : Token} :
    operatorAmong? ops token = none ↔ ∀ op ∈ ops, token.isOperator op = false := by
  constructor
  · intro h op hop
    rw [← Bool.not_eq_true, Token.isOperator_iff]
    intro heq
    have := operatorAmong?_eq_some_iff.mpr ⟨heq, hop⟩
    rw [h] at this
    cases this
  · intro h
    cases hop : operatorAmong? ops token with
    | none => rfl
    | some op =>
        obtain ⟨heq, hmem⟩ := operatorAmong?_eq_some_iff.mp hop
        rw [← Token.isOperator_iff, h op hmem] at heq
        cases heq

theorem operatorAmong?_singleton {op : Operator} {token : Token} :
    operatorAmong? [op] token = if token.isOperator op then some op else none := by
  split
  · rename_i h
    exact operatorAmong?_eq_some_iff.mpr ⟨Token.isOperator_iff.mp h, List.mem_singleton_self op⟩
  · rename_i h
    exact operatorAmong?_eq_none_iff.mpr (by simpa using h)

/-- The operators that may stand in front of an operand of the level. -/
def Level.prefixes : Level → List Operator
  | negation => [.not]
  | signed => [.plus, .minus]
  | disjunction | conjunction | comparison | sum | product | primary => []

theorem Level.ne_primary_of_joiners {level : Level} (h : level.joiners ≠ []) :
    level ≠ .primary := by
  rintro rfl
  exact h rfl

theorem Level.ne_primary_of_prefixes {level : Level} (h : level.prefixes ≠ []) :
    level ≠ .primary := by
  rintro rfl
  exact h rfl

/-! ### What each rule reads -/

namespace Level

variable (ending : Nat) {level : Level} {token opening closing : Token} {op : Operator}

/-- A level whose operators make chains is read as a chain. -/
theorem read_chain (h : level.joiners ≠ []) (tokens : List Token) (depth : Nat) :
    level.read ending tokens depth =
      chain level.joiners tokens (fun ts _ d => level.tighter.read ending ts d) depth := by
  cases level <;> first | contradiction | (rw [read]; rfl)

/-- Where none of its operators stands in front, a level is read as the next tighter one. -/
theorem read_unprefixed (hlevel : level.prefixes ≠ []) {tokens : List Token}
    (h : ∀ first ∈ tokens.head?, operatorAmong? level.prefixes first = none) (depth : Nat) :
    level.read ending tokens depth = level.tighter.read ending tokens depth := by
  cases level with
  | negation =>
      cases tokens with
      | nil => rw [read]; rfl
      | cons token rest =>
          have hnot : token.isOperator .not = false :=
            operatorAmong?_eq_none_iff.mp (h token rfl) _ (List.mem_singleton_self _)
          rw [read, hnot, if_neg (by decide)]
          rfl
  | signed =>
      cases tokens with
      | nil => rw [read]; rfl
      | cons token rest =>
          have hsign : operatorAmong? [.plus, .minus] token = none := h token rfl
          rw [read, hsign]
          rfl
  | disjunction | conjunction | comparison | sum | product | primary => contradiction

theorem read_negated (h : token.isOperator .not) (rest : List Token) (depth : Nat) :
    negation.read ending (token :: rest) depth = (do
      let operand ← deeper token.span rest depth fun d => negation.read ending rest d
      pure ((operand.map (unary .not token.span)).widen (Nat.le_succ _))) := by
  rw [read, if_pos h]

theorem read_signed (h : operatorAmong? [.plus, .minus] token = some op) (rest : List Token)
    (depth : Nat) :
    signed.read ending (token :: rest) depth = (do
      let operand ← deeper token.span rest depth fun d => signed.read ending rest d
      pure ((operand.map (unary op token.span)).widen (Nat.le_succ _))) := by
  rw [read, h]

theorem read_comparison (tokens : List Token) (depth : Nat) :
    comparison.read ending tokens depth = (do
      let left ← sum.read ending tokens depth
      compareWith left (fun ts _ d => sum.read ending ts d) depth) := by
  rw [read]

theorem read_nil (depth : Nat) :
    primary.read ending [] depth = fail .unexpectedEnd (endSpan ending) [] depth := by
  rw [read]

theorem read_literal {value : Literal} (h : token.kind = .literal value) (rest : List Token)
    (depth : Nat) :
    primary.read ending (token :: rest) depth =
      .ok ⟨.literal value (some token.span), rest, Nat.lt_succ_self _⟩ := by
  rw [read.eq_def]
  simp only [h]

theorem read_group (h : token.kind = .operator .openParenthesis) (rest : List Token)
    (depth : Nat) :
    primary.read ending (token :: rest) depth = (do
      let inner ← deeper token.span rest depth fun d => disjunction.read ending rest d
      let group ← closeGroup token.span inner depth
      pure (group.widen (Nat.le_succ _))) := by
  rw [read.eq_def]
  simp only [h]

theorem read_operator (h : token.kind = .operator op) (hop : op ≠ .openParenthesis)
    (rest : List Token) (depth : Nat) :
    primary.read ending (token :: rest) depth =
      fail (.unexpectedOperator token.text) token.span rest depth := by
  rw [read.eq_def]
  simp only [h]

/-- A name that is not called: it is in brackets, or no parenthesis stands behind it. -/
theorem read_name (h : token.kind = .identifier) {rest : List Token}
    (hrest : token.isBracketed = false →
      ∀ next ∈ rest.head?, next.isOperator .openParenthesis = false) (depth : Nat) :
    primary.read ending (token :: rest) depth = .ok ⟨name token, rest, Nat.lt_succ_self _⟩ := by
  rw [read.eq_def]
  simp only [h]
  split
  · rfl
  · rename_i hbracketed
    cases rest with
    | nil => rfl
    | cons next rest =>
        have hnext := hrest (Bool.eq_false_iff.mpr hbracketed) next rfl
        simp only [hnext, Bool.false_eq_true, if_false]

theorem read_emptyCall (h : token.kind = .identifier) (hb : token.isBracketed = false)
    (ho : opening.isOperator .openParenthesis) (hc : closing.isOperator .closeParenthesis)
    (rest : List Token) (depth : Nat) :
    primary.read ending (token :: opening :: closing :: rest) depth =
      .ok ⟨call token [] closing.span, rest, Nat.lt_add_of_pos_right (Nat.succ_pos 2)⟩ := by
  rw [read.eq_def]
  simp only [h, hb, ho, List.head?_cons, Option.filter_some, hc]
  rfl

theorem read_call (h : token.kind = .identifier) (hb : token.isBracketed = false)
    (ho : opening.isOperator .openParenthesis) {rest : List Token}
    (hrest : ∀ next ∈ rest.head?, next.isOperator .closeParenthesis = false) (depth : Nat) :
    primary.read ending (token :: opening :: rest) depth = (do
      let list ← deeper opening.span rest depth fun d =>
        arguments (fun ts _ d => disjunction.read ending ts d) rest (Nat.lt_succ_self _) d
      let whole ← closeCall ending token list depth
      pure (whole.widen (Nat.le_add_right _ 2))) := by
  have hfull : rest.head?.filter (·.isOperator .closeParenthesis) = none := by
    rw [Option.filter_eq_none_iff]
    intro next hnext
    simp [hrest next hnext]
  rw [read.eq_def]
  simp only [h, hb, ho, hfull]
  rfl

end Level

/-! ### Induction along the rules -/

/-- **Induction along the rules.**  What holds of a level on some tokens because it holds of all
that its rule calls holds of every level on all tokens. -/
@[elab_as_elim]
theorem Level.rule_induction {motive : Level → List Token → Nat → Prop}
    (chained : ∀ (level : Level) (tokens : List Token) (depth : Nat), level.joiners ≠ [] →
      (∀ ts : List Token, ts.length < tokens.length + 1 → ∀ d, motive level.tighter ts d) →
      motive level tokens depth)
    (unprefixed : ∀ (level : Level) (tokens : List Token) (depth : Nat), level.prefixes ≠ [] →
      (∀ first ∈ tokens.head?, operatorAmong? level.prefixes first = none) →
      motive level.tighter tokens depth → motive level tokens depth)
    (negated : ∀ (token : Token) (rest : List Token) (depth : Nat), token.isOperator .not →
      (∀ d, motive .negation rest d) → motive .negation (token :: rest) depth)
    (signed : ∀ (token : Token) (op : Operator) (rest : List Token) (depth : Nat),
      operatorAmong? [.plus, .minus] token = some op →
      (∀ d, motive .signed rest d) → motive .signed (token :: rest) depth)
    (comparison : ∀ (tokens : List Token) (depth : Nat), motive .sum tokens depth →
      (∀ ts : List Token, ts.length < tokens.length → ∀ d, motive .sum ts d) →
      motive .comparison tokens depth)
    (missing : ∀ depth : Nat, motive .primary [] depth)
    (literal : ∀ (token : Token) (value : Literal) (rest : List Token) (depth : Nat),
      token.kind = .literal value → motive .primary (token :: rest) depth)
    (group : ∀ (token : Token) (rest : List Token) (depth : Nat),
      token.kind = .operator .openParenthesis →
      (∀ d, motive .disjunction rest d) → motive .primary (token :: rest) depth)
    (misplaced : ∀ (token : Token) (op : Operator) (rest : List Token) (depth : Nat),
      token.kind = .operator op → op ≠ .openParenthesis → motive .primary (token :: rest) depth)
    (name : ∀ (token : Token) (rest : List Token) (depth : Nat), token.kind = .identifier →
      (token.isBracketed = false →
        ∀ next ∈ rest.head?, next.isOperator .openParenthesis = false) →
      motive .primary (token :: rest) depth)
    (emptyCall : ∀ (token opening closing : Token) (rest : List Token) (depth : Nat),
      token.kind = .identifier → token.isBracketed = false →
      opening.isOperator .openParenthesis → closing.isOperator .closeParenthesis →
      motive .primary (token :: opening :: closing :: rest) depth)
    (call : ∀ (token opening : Token) (rest : List Token) (depth : Nat),
      token.kind = .identifier → token.isBracketed = false →
      opening.isOperator .openParenthesis →
      (∀ next ∈ rest.head?, next.isOperator .closeParenthesis = false) →
      (∀ ts : List Token, ts.length < rest.length + 1 → ∀ d, motive .disjunction ts d) →
      motive .primary (token :: opening :: rest) depth)
    (level : Level) (tokens : List Token) (depth : Nat) : motive level tokens depth := by
  induction level, tokens, depth using Level.read.induct with
  | case1 depth tokens ih => exact chained _ _ _ (by decide) ih
  | case2 depth tokens ih => exact chained _ _ _ (by decide) ih
  | case3 depth ih => exact unprefixed _ _ _ (by decide) (by simp) ih
  | case4 depth token rest hnot ih => exact negated _ _ _ hnot ih
  | case5 depth token rest hnot ih =>
      refine unprefixed _ _ _ (by decide) ?_ ih
      rintro _ ⟨⟩
      rw [prefixes, operatorAmong?_singleton, if_neg hnot]
  | case6 depth tokens ihleft ihright => exact comparison _ _ ihleft ihright
  | case7 depth tokens ih => exact chained _ _ _ (by decide) ih
  | case8 depth tokens ih => exact chained _ _ _ (by decide) ih
  | case9 depth ih => exact unprefixed _ _ _ (by decide) (by simp) ih
  | case10 depth token rest op hop ih => exact signed _ _ _ _ hop ih
  | case11 depth token rest hop ih =>
      refine unprefixed _ _ _ (by decide) ?_ ih
      rintro _ ⟨⟩
      exact hop
  | case12 depth => exact missing _
  | case13 depth token rest value hkind => exact literal _ _ _ _ hkind
  | case14 depth token rest hkind ih => exact group _ _ _ hkind ih
  | case15 depth token rest op hop hkind => exact misplaced _ _ _ _ hkind hop
  | case16 depth token rest hkind hbracketed =>
      refine name _ _ _ hkind fun hbare => ?_
      rw [hbracketed] at hbare
      cases hbare
  | case17 depth token hkind hbare => exact name _ _ _ hkind fun _ => by simp
  | case18 depth token hkind hbare opening after hopen close hclose =>
      obtain ⟨hhead, hclosing⟩ := Option.filter_eq_some_iff.mp hclose
      obtain ⟨rest, rfl⟩ := List.head?_eq_some_iff.mp hhead
      exact emptyCall _ _ _ _ _ hkind (Bool.eq_false_iff.mpr hbare) hopen hclosing
  | case19 depth token hkind hbare opening after hopen hclose ih =>
      refine call _ _ _ _ hkind (Bool.eq_false_iff.mpr hbare) hopen (fun next hnext => ?_) ih
      exact Bool.eq_false_iff.mpr (Option.filter_eq_none_iff.mp hclose next hnext)
  | case20 depth token hkind hbare opening after hopen =>
      refine name _ _ _ hkind fun _ => ?_
      rintro _ ⟨⟩
      exact Bool.eq_false_iff.mpr hopen

end Grammar

end QueryFormula
