import QueryFormula.Proofs.Grammar.Soundness

/-!
# Phrases are read

Reading goes on as long as it can.  Behind a phrase it stops if the next token is
no operator that an expression of the phrase's level reads on at (`StopsAt`).
Then `Level.read` finds the phrase: it yields the phrase's tree if the levels of
nesting suffice for the phrase's need, and complains about the depth if not
(`Yields`).

`Phrase.isRead` goes by induction on the phrase, together with links and
arguments.
-/

namespace QueryFormula.Grammar

/-- What becomes of reading a value that takes up `need` levels of nesting. -/
structure Yields {α : Type} {bound : Nat} (result : Except Failure (Parsed Token α bound))
    (depth need : Nat) (value : α) (rest : List Token) : Prop where
  found : depth + need ≤ depthLimit → ∃ shorter, result = .ok ⟨value, rest, shorter⟩
  tooDeep : depthLimit < depth + need →
    ∃ failure, result = .error failure ∧ failure.error.fault = .tooDeep

namespace Yields

variable {α β : Type} {bound bound' : Nat} {depth need need' : Nat} {value : α} {value' : β}
  {rest rest' : List Token}

/-- What is there already needs no further level. -/
theorem ok {parsed : Parsed Token α bound} (hfree : depth ≤ depthLimit) :
    Yields (.ok parsed) depth 0 parsed.value parsed.rest where
  found _ := ⟨parsed.shorter, rfl⟩
  tooDeep h := by omega

/-- Two readings one after the other need as much as the needier one. -/
theorem bind {first : Except Failure (Parsed Token α bound)}
    {next : Parsed Token α bound → Except Failure (Parsed Token β bound')}
    (hfirst : Yields first depth need value rest)
    (hnext : ∀ shorter, Yields (next ⟨value, rest, shorter⟩) depth need' value' rest') :
    Yields (first >>= next) depth (max need need') value' rest' where
  found h := by
    obtain ⟨shorter, rfl⟩ := hfirst.found (by omega)
    exact (hnext shorter).found (by omega)
  tooDeep h := by
    by_cases hroom : depth + need ≤ depthLimit
    · obtain ⟨shorter, rfl⟩ := hfirst.found hroom
      exact (hnext shorter).tooDeep (by omega)
    · obtain ⟨failure, rfl, hfault⟩ := hfirst.tooDeep (by omega)
      exact ⟨failure, rfl, hfault⟩

/-- What only goes on with the value that was read needs no further level. -/
theorem andThen {first : Except Failure (Parsed Token α bound)}
    {next : Parsed Token α bound → Except Failure (Parsed Token β bound')}
    (hfirst : Yields first depth need value rest)
    (hnext : ∀ shorter, ∃ shorter', next ⟨value, rest, shorter⟩ = .ok ⟨value', rest', shorter'⟩) :
    Yields (first >>= next) depth need value' rest' where
  found h := by
    obtain ⟨shorter, rfl⟩ := hfirst.found h
    exact hnext shorter
  tooDeep h := by
    obtain ⟨failure, rfl, hfault⟩ := hfirst.tooDeep h
    exact ⟨failure, rfl, hfault⟩

/-- Levels that are taken already count as needed from where they were free. -/
theorem shift {result : Except Failure (Parsed Token α bound)} {taken : Nat}
    (h : Yields result (depth + taken) need value rest) :
    Yields result depth (taken + need) value rest where
  found hroom := h.found (by omega)
  tooDeep hfull := h.tooDeep (by omega)

theorem deeper {inner : Nat → Except Failure (Parsed Token α bound)} {span : Span}
    {tokens : List Token}
    (hinner : depth + 1 ≤ depthLimit → Yields (inner (depth + 1)) (depth + 1) need value rest) :
    Yields (deeper span tokens depth inner) depth (1 + need) value rest where
  found h := by
    obtain ⟨shorter, heq⟩ := (hinner (by omega)).found (by omega)
    exact ⟨shorter, by rw [Grammar.deeper, if_neg (by omega), heq]⟩
  tooDeep h := by
    unfold Grammar.deeper
    by_cases hfull : depthLimit ≤ depth
    · rw [if_pos hfull]
      exact ⟨_, rfl, rfl⟩
    · obtain ⟨failure, heq, hfault⟩ := (hinner (by omega)).tooDeep (by omega)
      rw [if_neg hfull, heq]
      exact ⟨_, rfl, hfault⟩

end Yields

/-- The height of the tightest level that reads on at an operator behind one of
its expressions. -/
def joinHeight? : Operator → Option Nat
  | .openParenthesis => some Level.primary.height
  | .star | .slash => some Level.product.height
  | .plus | .minus => some Level.sum.height
  | .equal | .notEqual | .less | .greater | .lessEqual | .greaterEqual =>
    some Level.comparison.height
  | .and => some Level.conjunction.height
  | .or => some Level.disjunction.height
  | .comma | .closeParenthesis | .not => none

/-- No expression of the level reads on at the first of these tokens. -/
def StopsAt (level : Level) (tokens : List Token) : Prop :=
  ∀ token ∈ tokens.head?, ∀ op, token.operator? = some op →
    ∀ height ∈ joinHeight? op, level.height < height

theorem stopsAt_nil (level : Level) : StopsAt level [] := by
  simp [StopsAt]

theorem stopsAt_cons {level : Level} {token : Token} {op : Operator} {rest : List Token}
    (hop : token.operator? = some op)
    (h : ∀ height ∈ joinHeight? op, level.height < height) :
    StopsAt level (token :: rest) := by
  rintro _ ⟨⟩ op' hop'
  obtain rfl := Option.some.inj (hop.symm.trans hop')
  exact h

theorem height_tighter_lt {level : Level} (above : level ≠ .primary) :
    level.tighter.height < level.height := by
  cases level <;> first | contradiction | decide

/-- Where an expression stops, so does one that binds tighter. -/
theorem StopsAt.mono {level level' : Level} {tokens : List Token}
    (hle : level'.height ≤ level.height) (h : StopsAt level tokens) : StopsAt level' tokens :=
  fun token htoken op hop height hheight =>
    Nat.lt_of_le_of_lt hle (h token htoken op hop height hheight)

theorem joinHeight?_of_mem_joiners {level : Level} {op : Operator} (h : op ∈ level.joiners) :
    joinHeight? op = some level.height := by
  cases level <;> simp [Level.joiners] at h <;> grind [joinHeight?]

theorem joinHeight?_of_mem_comparisons {op : Operator} (h : op ∈ Operator.comparisons) :
    joinHeight? op = some Level.comparison.height := by
  simp [Operator.comparisons] at h
  grind [joinHeight?]

/-- A chain ends where its level stops. -/
theorem StopsAt.operatorAmong?_eq_none {level : Level} {ops : List Operator} {token : Token}
    {rest : List Token} (hops : ∀ op ∈ ops, joinHeight? op = some level.height)
    (h : StopsAt level (token :: rest)) : operatorAmong? ops token = none := by
  cases hop : operatorAmong? ops token with
  | none => rfl
  | some op =>
      obtain ⟨hop, hmem⟩ := operatorAmong?_eq_some_iff.mp hop
      have := h token rfl op hop _ (hops op hmem)
      omega

theorem OperatorToken.operatorAmong?_eq {ops : List Operator} (sign : OperatorToken ops) :
    operatorAmong? ops sign.token = some sign.op :=
  operatorAmong?_eq_some_iff.mpr ⟨sign.operator_eq, sign.among⟩

theorem OperatorToken.isOperator {op : Operator} (sign : OperatorToken [op]) :
    sign.token.isOperator op :=
  Token.isOperator_iff.mpr (sign.operator_eq.trans (by rw [List.mem_singleton.mp sign.among]))

/-- The operators that an expression of the level can begin with. -/
def Level.openers (level : Level) : List Operator :=
  if level.height = 0 then [.openParenthesis]
  else if level.height < Level.negation.height then [.openParenthesis, .plus, .minus]
  else [.openParenthesis, .plus, .minus, .not]

theorem openers_tighter_subset (level : Level) : level.tighter.openers ⊆ level.openers := by
  cases level <;> decide

theorem not_mem_openers_tighter {level : Level} :
    ∀ op ∈ level.prefixes, op ∉ level.tighter.openers := by
  cases level <;> decide

/-- A phrase is not empty, and begins with a token that its level can begin with. -/
theorem Phrase.begins {level : Level} : (phrase : Phrase level) →
    ∃ token rest, phrase.tokens = token :: rest ∧
      ∀ op, token.operator? = some op → op ∈ level.openers
  | .literal token _ is => ⟨token, [], rfl, by simp [Token.operator?, is]⟩
  | .name token is => ⟨token, [], rfl, by simp [Token.operator?, is]⟩
  | .emptyCall frame | .call frame _ =>
    ⟨frame.name, _, rfl, by simp [Token.operator?, frame.identifier]⟩
  | .group opening _ _ => ⟨opening.token, _, rfl, by
      intro op hop
      obtain rfl := Option.some.inj (opening.operator_eq.symm.trans hop)
      exact opening.among⟩
  | .signed sign operand => ⟨sign.token, operand.tokens, rfl, by
      intro op hop
      obtain rfl := Option.some.inj (sign.operator_eq.symm.trans hop)
      exact List.mem_cons_of_mem _ sign.among⟩
  | .negated sign operand => ⟨sign.token, operand.tokens, rfl, by
      intro op hop
      obtain rfl := Option.some.inj (sign.operator_eq.symm.trans hop)
      rw [List.mem_singleton.mp sign.among]
      decide⟩
  | .compared left sign right => by
      obtain ⟨token, rest, htokens, hop⟩ := left.begins
      exact ⟨token, _, by rw [Phrase.tokens, htokens]; rfl, hop⟩
  | .chain above first links => by
      obtain ⟨token, rest, htokens, hop⟩ := first.begins
      refine ⟨token, _, by rw [Phrase.tokens, htokens]; rfl, ?_⟩
      exact fun op h => openers_tighter_subset level (hop op h)

theorem Phrase.head_not_operator {level : Level} (phrase : Phrase level) {token : Token}
    {rest rest' : List Token} {op : Operator} (h : phrase.tokens ++ rest = token :: rest')
    (hop : op ∉ level.openers) : token.isOperator op = false := by
  obtain ⟨first, tail, htokens, hfirst⟩ := phrase.begins
  rw [htokens] at h
  obtain ⟨rfl, _⟩ := List.cons.inj h
  rw [← Bool.not_eq_true, Token.isOperator_iff]
  exact fun heq => hop (hfirst op heq)

variable {ending : Nat}

/-- What reading makes of a phrase in front of some tokens. -/
def Phrase.IsRead (ending : Nat) {level : Level} (phrase : Phrase level) : Prop :=
  ∀ {tokens rest : List Token} {depth : Nat}, tokens = phrase.tokens ++ rest →
    StopsAt level rest → depth ≤ depthLimit →
      Yields (level.read ending tokens depth) depth phrase.need phrase.tree rest

/-- What reading makes of links in front of some tokens, `switches` operators of
the chain being counted already. -/
def Links.IsRead (ending : Nat) {level : Level} (links : Links level) : Prop :=
  ∀ {tokens rest : List Token} {bound : Nat} {within : tokens.length < bound}
    {base switches depth : Nat} {left : Expr}, tokens = links.tokens ++ rest →
    StopsAt level rest → depth = base + switches → depth ≤ depthLimit →
      Yields (chainTail level.joiners (fun ts _ d => level.tighter.read ending ts d) left tokens
        within depth) base (links.need left switches) (links.extend left) rest

/-- What reading makes of arguments in front of some tokens. -/
def Arguments.IsRead (ending : Nat) (list : Arguments) : Prop :=
  ∀ {tokens rest : List Token} {bound : Nat} {within : tokens.length < bound} {depth : Nat},
    tokens = list.tokens ++ rest → StopsAt .disjunction rest →
    (∀ token ∈ rest.head?, token.isOperator .comma = false) → depth ≤ depthLimit →
      Yields (arguments (fun ts _ d => Level.disjunction.read ending ts d) tokens within depth)
        depth list.need list.trees rest

theorem Links.isRead_nil {level : Level} : (.nil : Links level).IsRead ending := by
  intro tokens rest bound within base switches depth left htokens hstop hdepth hfree
  obtain rfl : tokens = rest := htokens
  cases tokens with
  | nil =>
      rw [chainTail]
      exact Yields.ok (by omega)
  | cons token rest =>
      rw [chainTail, hstop.operatorAmong?_eq_none fun _ => joinHeight?_of_mem_joiners]
      exact Yields.ok (by omega)

/-- Behind an operand of a level stands one of its operators or what follows. -/
theorem Links.stopsAt {level : Level} (above : level ≠ .primary) (links : Links level)
    {rest : List Token} (hstop : StopsAt level rest) :
    StopsAt level.tighter (links.tokens ++ rest) := by
  cases links with
  | nil => exact hstop.mono (Nat.le_of_lt (height_tighter_lt above))
  | cons sign operand links =>
      refine stopsAt_cons sign.operator_eq fun height hheight => ?_
      obtain rfl := Option.some.inj ((joinHeight?_of_mem_joiners sign.among).symm.trans hheight)
      exact height_tighter_lt above

theorem Links.isRead_cons {level : Level} (above : level ≠ .primary)
    {sign : OperatorToken level.joiners} {operand : Phrase level.tighter} {links : Links level}
    (hoperand : operand.IsRead ending) (hlinks : links.IsRead ending) :
    (Links.cons sign operand links).IsRead ending := by
  intro tokens rest bound within base switches depth left htokens hstop hdepth hfree
  simp only [Links.tokens, List.cons_append, List.append_assoc] at htokens
  subst htokens
  rw [chainTail, sign.operatorAmong?_eq]
  dsimp only
  by_cases hfull : (!isChainOf left sign.op && decide (depthLimit ≤ depth)) = true
  · -- the operator begins a new clause, and no level is left for it
    rw [if_pos hfull]
    simp only [Bool.and_eq_true, Bool.not_eq_true', decide_eq_true_eq] at hfull
    have hneed : switches + 1 ≤ (Links.cons sign operand links).need left switches := by
      simp only [Links.need, switchesAfter, hfull.1, Bool.false_eq_true, if_false]
      exact Nat.le_trans (Nat.le_add_right _ _) (Nat.le_max_left _ _)
    exact ⟨by omega, fun _ => ⟨_, rfl, rfl⟩⟩
  · rw [if_neg hfull]
    have hdeeper : (if isChainOf left sign.op then depth else depth + 1) =
        base + switchesAfter left sign.op switches := by
      simp only [switchesAfter]
      split <;> omega
    have hroomy : (if isChainOf left sign.op then depth else depth + 1) ≤ depthLimit := by
      simp only [Bool.and_eq_true, Bool.not_eq_true', decide_eq_true_eq] at hfull
      split <;> grind
    generalize (if isChainOf left sign.op then depth else depth + 1) = deeper at *
    subst hdeeper
    have hright := (hoperand rfl (links.stopsAt above hstop) hroomy).shift
    refine hright.bind fun shorter => ?_
    exact (hlinks rfl hstop rfl hroomy).andThen fun _ => ⟨_, rfl⟩

theorem Arguments.isRead_last {argument : Phrase .disjunction} (h : argument.IsRead ending) :
    (Arguments.last argument).IsRead ending := by
  intro tokens rest bound within depth htokens hstop hcomma hfree
  have hfirst := h htokens hstop hfree
  rw [arguments]
  refine hfirst.andThen fun shorter => ?_
  dsimp only
  split
  · exact ⟨shorter, rfl⟩
  · rename_i token rest
    rw [if_neg (by simp [hcomma token rfl])]
    exact ⟨shorter, rfl⟩

theorem Arguments.isRead_cons {argument : Phrase .disjunction} {comma : OperatorToken [.comma]}
    {others : Arguments} (hargument : argument.IsRead ending) (hothers : others.IsRead ending) :
    (Arguments.cons argument comma others).IsRead ending := by
  intro tokens rest bound within depth htokens hstop hcomma hfree
  have hnext : StopsAt .disjunction (comma.token :: (others.tokens ++ rest)) := by
    refine stopsAt_cons comma.operator_eq fun height hheight => ?_
    rw [List.mem_singleton.mp comma.among] at hheight
    cases hheight
  have hfirst := hargument (by simpa [Arguments.tokens] using htokens) hnext hfree
  rw [arguments]
  refine hfirst.bind fun shorter => ?_
  dsimp only
  rw [if_pos comma.isOperator]
  exact (hothers rfl hstop hcomma hfree).andThen fun _ => ⟨_, rfl⟩

theorem Phrase.isRead_chain {level : Level} {above : level ≠ .primary}
    {first : Phrase level.tighter} {links : Links level} (hjoin : level.joiners ≠ [])
    (hfirst : first.IsRead ending) (hlinks : links.IsRead ending) :
    (Phrase.chain above first links).IsRead ending := by
  intro tokens rest depth htokens hstop hfree
  simp only [Phrase.tokens, List.append_assoc] at htokens
  have hread := hfirst htokens (links.stopsAt above hstop) hfree
  rw [Level.read_chain ending hjoin, Grammar.chain]
  refine hread.bind fun shorter => ?_
  exact (hlinks rfl hstop (Nat.add_zero depth).symm hfree).andThen fun _ => ⟨_, rfl⟩

/-- A level without operators of its own has no links. -/
theorem Links.eq_nil {level : Level} (h : level.joiners = []) (links : Links level) :
    links = .nil := by
  cases links with
  | nil => rfl
  | cons sign _ _ => exact (List.eq_nil_iff_forall_not_mem.mp h _ sign.among).elim

theorem Phrase.tokens_chain_nil {level : Level} (above : level ≠ .primary)
    (first : Phrase level.tighter) : (Phrase.chain above first .nil).tokens = first.tokens := by
  simp [Phrase.tokens, Links.tokens]

theorem Phrase.need_chain_nil {level : Level} (above : level ≠ .primary)
    (first : Phrase level.tighter) : (Phrase.chain above first .nil).need = first.need := by
  simp [Phrase.need, Links.need]

/-- No operator stands in front of an operand alone: none of the operators that may is one that
the operand begins with. -/
theorem Phrase.isRead_unprefixed {level : Level} (hprefixes : level.prefixes ≠ [])
    {above : level ≠ .primary} {first : Phrase level.tighter} (h : first.IsRead ending) :
    (Phrase.chain above first .nil).IsRead ending := by
  intro tokens rest depth htokens hstop hfree
  rw [Phrase.tokens_chain_nil] at htokens
  have hnone : ∀ token ∈ tokens.head?, operatorAmong? level.prefixes token = none := by
    intro token hhead
    obtain ⟨tail, htail⟩ := List.head?_eq_some_iff.mp hhead
    exact operatorAmong?_eq_none_iff.mpr fun op hop =>
      first.head_not_operator (htokens.symm.trans htail) (not_mem_openers_tighter op hop)
  rw [Phrase.need_chain_nil, Level.read_unprefixed ending hprefixes hnone]
  exact h htokens (hstop.mono (Nat.le_of_lt (height_tighter_lt above))) hfree

/-- A sum is a comparison: nothing behind it is compared. -/
theorem Phrase.isRead_comparison {above : Level.comparison ≠ .primary}
    {first : Phrase Level.comparison.tighter} (h : first.IsRead ending) :
    (Phrase.chain above first .nil).IsRead ending := by
  intro tokens rest depth htokens hstop hfree
  rw [Phrase.tokens_chain_nil] at htokens
  have hread := h htokens (hstop.mono (by decide)) hfree
  rw [Level.read_comparison, Phrase.need_chain_nil]
  refine hread.andThen fun shorter => ?_
  unfold compareWith
  dsimp only
  split
  · exact ⟨shorter, rfl⟩
  · rename_i token tail
    rw [hstop.operatorAmong?_eq_none fun _ => joinHeight?_of_mem_comparisons]
    exact ⟨shorter, rfl⟩

theorem Phrase.isRead_compared {left : Phrase .sum} {sign : OperatorToken Operator.comparisons}
    {right : Phrase .sum} (hleft : left.IsRead ending) (hright : right.IsRead ending) :
    (Phrase.compared left sign right).IsRead ending := by
  intro tokens rest depth htokens hstop hfree
  simp only [Phrase.tokens, List.append_assoc, List.cons_append] at htokens
  have hsign : StopsAt .sum (sign.token :: (right.tokens ++ rest)) := by
    refine stopsAt_cons sign.operator_eq fun height hheight => ?_
    obtain rfl := Option.some.inj
      ((joinHeight?_of_mem_comparisons sign.among).symm.trans hheight)
    decide
  have hread := hleft htokens hsign hfree
  rw [Level.read_comparison]
  refine hread.bind fun shorter => ?_
  unfold compareWith
  dsimp only
  rw [sign.operatorAmong?_eq]
  exact (hright rfl (hstop.mono (by decide)) hfree).andThen fun _ => ⟨_, rfl⟩

theorem Phrase.isRead_signed_sign {sign : OperatorToken [.plus, .minus]}
    {operand : Phrase .signed} (h : operand.IsRead ending) :
    (Phrase.signed sign operand).IsRead ending := by
  intro tokens rest depth htokens hstop hfree
  simp only [Phrase.tokens, List.cons_append] at htokens
  subst htokens
  rw [Level.read_signed ending sign.operatorAmong?_eq]
  exact (Yields.deeper (h rfl hstop)).andThen fun _ => ⟨_, rfl⟩

theorem Phrase.isRead_negated {sign : OperatorToken [.not]} {operand : Phrase .negation}
    (h : operand.IsRead ending) : (Phrase.negated sign operand).IsRead ending := by
  intro tokens rest depth htokens hstop hfree
  simp only [Phrase.tokens, List.cons_append] at htokens
  subst htokens
  rw [Level.read_negated ending sign.isOperator]
  simp only [Phrase.tree, List.mem_singleton.mp sign.among]
  exact (Yields.deeper (h rfl hstop)).andThen fun _ => ⟨_, rfl⟩

theorem Phrase.isRead_literal {token : Token} {value : Literal}
    {is : token.kind = .literal value} : (Phrase.literal token value is).IsRead ending := by
  intro tokens rest depth htokens hstop hfree
  simp only [Phrase.tokens, List.cons_append, List.nil_append] at htokens
  subst htokens
  rw [Level.read_literal ending is]
  exact Yields.ok hfree

theorem Phrase.isRead_name {token : Token} {is : token.kind = .identifier} :
    (Phrase.name token is).IsRead ending := by
  intro tokens rest depth htokens hstop hfree
  simp only [Phrase.tokens, List.cons_append, List.nil_append] at htokens
  subst htokens
  have hrest : token.isBracketed = false →
      ∀ next ∈ rest.head?, next.isOperator .openParenthesis = false := by
    intro _ next hnext
    refine Bool.eq_false_iff.mpr fun hopen => ?_
    have := hstop next hnext _ (Token.isOperator_iff.mp hopen) _ rfl
    omega
  rw [Level.read_name ending is hrest]
  exact Yields.ok hfree

theorem OperatorToken.kind_eq {op : Operator} (sign : OperatorToken [op]) :
    sign.token.kind = .operator op := by
  have h := sign.operator_eq
  rw [List.mem_singleton.mp sign.among, Token.operator?] at h
  split at h
  · rename_i kind hkind
    rw [hkind, Option.some.inj h]
  · cases h

/-- Nothing reads on at a closing parenthesis. -/
theorem stopsAt_closing (level : Level) (closing : OperatorToken [.closeParenthesis])
    (rest : List Token) : StopsAt level (closing.token :: rest) := by
  refine stopsAt_cons closing.operator_eq fun height hheight => ?_
  rw [List.mem_singleton.mp closing.among] at hheight
  cases hheight

theorem Phrase.isRead_group {opening : OperatorToken [.openParenthesis]}
    {inner : Phrase .disjunction} {closing : OperatorToken [.closeParenthesis]}
    (h : inner.IsRead ending) : (Phrase.group opening inner closing).IsRead ending := by
  intro tokens rest depth htokens hstop hfree
  simp only [Phrase.tokens, List.cons_append, List.append_assoc, List.nil_append] at htokens
  subst htokens
  rw [Level.read_group ending opening.kind_eq]
  refine (Yields.deeper (h rfl (stopsAt_closing _ closing rest))).andThen fun shorter => ?_
  simp only [closeGroup, closing.isOperator, ↓reduceIte]
  exact ⟨Nat.lt_succ_of_lt (Nat.lt_of_succ_lt shorter), rfl⟩

theorem Arguments.begins (list : Arguments) : ∃ token rest, list.tokens = token :: rest ∧
    ∀ op, token.operator? = some op → op ∈ Level.disjunction.openers := by
  cases list with
  | last argument => exact argument.begins
  | cons argument comma others =>
      obtain ⟨token, rest, htokens, hop⟩ := argument.begins
      exact ⟨token, _, by rw [Arguments.tokens, htokens]; rfl, hop⟩

/-- A call with arguments is not taken for one without. -/
theorem Arguments.head_not_closing (list : Arguments) (rest : List Token) :
    ∀ next ∈ (list.tokens ++ rest).head?, next.isOperator .closeParenthesis = false := by
  obtain ⟨token, tail, htokens, hop⟩ := list.begins
  rw [htokens]
  rintro _ ⟨⟩
  rw [← Bool.not_eq_true, Token.isOperator_iff]
  intro h
  exact absurd (hop _ h) (by decide)

theorem Phrase.isRead_emptyCall {frame : CallTokens} :
    (Phrase.emptyCall frame).IsRead ending := by
  intro tokens rest depth htokens hstop hfree
  simp only [Phrase.tokens, List.cons_append, List.nil_append] at htokens
  subst htokens
  rw [Level.read_emptyCall ending frame.identifier frame.bare frame.opening.isOperator
    frame.closing.isOperator]
  exact Yields.ok hfree

theorem Phrase.isRead_call {frame : CallTokens} {list : Arguments} (h : list.IsRead ending) :
    (Phrase.call frame list).IsRead ending := by
  intro tokens rest depth htokens hstop hfree
  simp only [Phrase.tokens, List.cons_append, List.append_assoc, List.nil_append] at htokens
  subst htokens
  have hclose := stopsAt_closing .disjunction frame.closing rest
  have hcomma : ∀ token ∈ (frame.closing.token :: rest).head?, token.isOperator .comma = false := by
    rintro _ ⟨⟩
    simp [Token.isOperator, Token.operator?, frame.closing.kind_eq]
  rw [Level.read_call ending frame.identifier frame.bare frame.opening.isOperator
    (list.head_not_closing (frame.closing.token :: rest))]
  refine (Yields.deeper (h rfl hclose hcomma)).andThen fun shorter => ?_
  simp only [closeCall, frame.closing.isOperator, ↓reduceIte]
  exact ⟨Nat.lt_add_right 2 (Nat.lt_of_succ_lt shorter), rfl⟩

mutual

/-- **Completeness.**  Every phrase is read where nothing behind it is read on. -/
theorem Phrase.isRead (ending : Nat) {level : Level} : (phrase : Phrase level) →
    phrase.IsRead ending
  | .literal _ _ _ => Phrase.isRead_literal
  | .name _ _ => Phrase.isRead_name
  | .emptyCall _ => Phrase.isRead_emptyCall
  | .call _ list => Phrase.isRead_call (list.isRead ending)
  | .group _ inner _ => Phrase.isRead_group (inner.isRead ending)
  | .signed _ operand => Phrase.isRead_signed_sign (operand.isRead ending)
  | .negated _ operand => Phrase.isRead_negated (operand.isRead ending)
  | .compared left _ right => Phrase.isRead_compared (left.isRead ending) (right.isRead ending)
  | .chain above first links => by
      have hfirst : first.IsRead ending := first.isRead ending
      have hlinks : links.IsRead ending := links.isRead ending above
      by_cases hjoin : level.joiners = []
      · obtain rfl := Links.eq_nil hjoin links
        cases level with
        | negation | signed => exact Phrase.isRead_unprefixed (by decide) hfirst
        | comparison => exact Phrase.isRead_comparison hfirst
        | primary => exact absurd rfl above
        | _ => cases hjoin
      · exact Phrase.isRead_chain hjoin hfirst hlinks

theorem Links.isRead (ending : Nat) {level : Level} (above : level ≠ .primary) :
    (links : Links level) → links.IsRead ending
  | .nil => Links.isRead_nil
  | .cons _ operand links =>
    Links.isRead_cons above (operand.isRead ending) (links.isRead ending above)

theorem Arguments.isRead (ending : Nat) : (list : Arguments) → list.IsRead ending
  | .last argument => Arguments.isRead_last (argument.isRead ending)
  | .cons argument _ others =>
    Arguments.isRead_cons (argument.isRead ending) (others.isRead ending)

end

end QueryFormula.Grammar
