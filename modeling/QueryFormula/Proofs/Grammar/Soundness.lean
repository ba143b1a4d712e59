import QueryFormula.Grammar.Parser
import QueryFormula.Proofs.Grammar.Rules
import QueryFormula.Proofs.Result

/-!
# What is read is a phrase

Whatever `Level.read` reads off the front of a token list is the tree of a phrase
of that level.  The phrase derives exactly the tokens that are gone, and its need
fits into the levels of nesting that were left.

Each loop and each helper of the grammar has its own lemma; `Level.read_sound`
puts them together along the recursion of `Level.read`.
-/

namespace QueryFormula

namespace Grammar

/-- A token that was found among some operators. -/
def OperatorToken.ofAmong {ops : List Operator} {token : Token} {op : Operator}
    (h : operatorAmong? ops token = some op) : OperatorToken ops where
  token := token
  op := op
  operator_eq := (operatorAmong?_eq_some_iff.mp h).1
  among := (operatorAmong?_eq_some_iff.mp h).2

/-- A token that was held against one operator. -/
def OperatorToken.ofIs {token : Token} {op : Operator} (h : token.isOperator op) :
    OperatorToken [op] where
  token := token
  op := op
  operator_eq := Token.isOperator_iff.mp h
  among := List.mem_singleton_self op

/-- A phrase accounts for a reading: it derives the tokens that were read, stands
for the tree that was built, and fits into the levels that were left. -/
structure Phrase.Accounts {level : Level} (phrase : Phrase level) (tokens : List Token)
    (depth : Nat) (tree : Expr) (rest : List Token) : Prop where
  tokens_eq : tokens = phrase.tokens ++ rest
  tree_eq : phrase.tree = tree
  fits : depth + phrase.need ≤ depthLimit

/-- All that a reading of some tokens yields is accounted for. -/
def Sound (level : Level) {bound : Nat} (tokens : List Token) (depth : Nat)
    (result : Except Failure (Parsed Token Expr bound)) : Prop :=
  ∀ parsed, result = .ok parsed →
    ∃ phrase : Phrase level, phrase.Accounts tokens depth parsed.value parsed.rest

/-- A rule is sound wherever a level is left. -/
def SoundRule (level : Level) {bound : Nat} (rule : Rule Expr bound) : Prop :=
  ∀ tokens within depth, depth ≤ depthLimit →
    Sound level tokens depth (rule tokens within depth)

variable {level : Level} {bound : Nat}

/-- A level that was entered was still free, and inside it a rule is one level
deeper. -/
theorem deeper_eq_ok {α : Type} {span : Span} {tokens : List Token} {depth : Nat}
    {inner : Nat → Except Failure α} {value : α}
    (h : deeper span tokens depth inner = .ok value) :
    depth + 1 ≤ depthLimit ∧ inner (depth + 1) = .ok value := by
  unfold deeper at h
  split at h
  · cases h
  · rename_i hfree
    cases hinner : inner (depth + 1) with
    | error failure => simp [hinner] at h
    | ok found =>
        simp only [hinner, Except.ok.injEq] at h
        exact ⟨by omega, by rw [h]⟩

/-- **Chains.**  The operators and operands that follow an operand are links. -/
theorem chainTail_sound {operand : Rule Expr bound} (sound : SoundRule level.tighter operand)
    {base : Nat} (left : Expr) (tokens : List Token) (within : tokens.length < bound)
    (depth : Nat) {switches : Nat} (hdepth : depth = base + switches)
    (hfree : depth ≤ depthLimit) {parsed : Parsed Token Expr (tokens.length + 1)}
    (h : chainTail level.joiners operand left tokens within depth = .ok parsed) :
    ∃ links : Links level, tokens = links.tokens ++ parsed.rest ∧
      links.extend left = parsed.value ∧ base + links.need left switches ≤ depthLimit := by
  fun_induction chainTail level.joiners operand left tokens within depth
    generalizing switches with
  | case1 left depth =>
      cases h
      exact ⟨.nil, rfl, rfl, by simp [Links.need]; omega⟩
  | case2 left depth token rest =>
      cases h
      exact ⟨.nil, rfl, rfl, by simp [Links.need]; omega⟩
  | case3 => cases h
  | case4 left depth token rest within op hop hroom deeper _ =>
      rename_i ih
      obtain ⟨right, hright, h⟩ := bind_eq_ok_iff.mp h
      obtain ⟨whole, hwhole, h⟩ := bind_eq_ok_iff.mp h
      have hdeeper : deeper = base + switchesAfter left op switches := by
        simp only [deeper, switchesAfter]
        split <;> omega
      have hroomy : deeper ≤ depthLimit := by
        simp only [deeper]
        simp only [Bool.and_eq_true, Bool.not_eq_true', decide_eq_true_eq] at hroom
        split <;> grind
      obtain ⟨phrase, hphrase⟩ := sound _ _ _ hroomy right hright
      obtain ⟨links, htokens, htree, hfits⟩ := ih right hdeeper hroomy hwhole
      obtain rfl := pure_eq_ok_iff.mp h
      refine ⟨.cons (.ofAmong hop) phrase links, ?_, ?_, ?_⟩
      · simp [Links.tokens, OperatorToken.ofAmong, hphrase.tokens_eq, htokens]
      · simpa [Links.extend, OperatorToken.ofAmong, hphrase.tree_eq] using htree
      · have := hphrase.fits
        simp only [Links.need, OperatorToken.ofAmong, hphrase.tree_eq]
        omega

/-- A chain whose operands are phrases is a phrase of its level. -/
theorem chain_sound (level : Level) {tokens : List Token} {operand : Rule Expr (tokens.length + 1)}
    (sound : SoundRule level.tighter operand) (above : level ≠ .primary) {depth : Nat}
    (hfree : depth ≤ depthLimit) :
    Sound level tokens depth (chain level.joiners tokens operand depth) := by
  intro parsed h
  obtain ⟨first, hfirst, h⟩ := bind_eq_ok_iff.mp h
  obtain ⟨whole, hwhole, h⟩ := bind_eq_ok_iff.mp h
  obtain rfl := pure_eq_ok_iff.mp h
  obtain ⟨phrase, hphrase⟩ := sound _ _ _ hfree first hfirst
  obtain ⟨links, htokens, htree, hfits⟩ :=
    chainTail_sound sound first.value first.rest _ depth (Nat.add_zero _).symm hfree hwhole
  refine ⟨.chain above phrase links, ?_, ?_, ?_⟩
  · simp [Phrase.tokens, hphrase.tokens_eq, htokens]
  · simpa [Phrase.tree, hphrase.tree_eq] using htree
  · have := hphrase.fits
    simp only [Phrase.need, hphrase.tree_eq]
    omega

/-- **Arguments.**  What is read between the parentheses of a call is one argument
or more. -/
theorem arguments_sound {argument : Rule Expr bound}
    (sound : SoundRule .disjunction argument) (tokens : List Token)
    (within : tokens.length < bound) {depth : Nat} (hfree : depth ≤ depthLimit)
    {parsed : Parsed Token (List Expr) tokens.length}
    (h : arguments argument tokens within depth = .ok parsed) :
    ∃ list : Arguments, tokens = list.tokens ++ parsed.rest ∧
      list.trees = parsed.value ∧ depth + list.need ≤ depthLimit := by
  fun_induction arguments argument tokens within depth with
  | case1 tokens within ih =>
      obtain ⟨first, hfirst, h⟩ := bind_eq_ok_iff.mp h
      obtain ⟨phrase, hphrase⟩ := sound _ _ _ hfree first hfirst
      have hlast : pure (first.map ([·])) = Except.ok (ε := Failure) parsed →
          ∃ list : Arguments, tokens = list.tokens ++ parsed.rest ∧
            list.trees = parsed.value ∧ depth + list.need ≤ depthLimit := by
        intro h
        obtain rfl := pure_eq_ok_iff.mp h
        exact ⟨.last phrase, hphrase.tokens_eq, congrArg ([·]) hphrase.tree_eq, hphrase.fits⟩
      split at h
      · exact hlast h
      · rename_i token rest hrest
        by_cases hcomma : token.isOperator .comma
        · rw [if_pos hcomma] at h
          obtain ⟨others, hothers, h⟩ := bind_eq_ok_iff.mp h
          obtain rfl := pure_eq_ok_iff.mp h
          obtain ⟨list, htokens, htrees, hfits⟩ := ih first token rest hrest hothers
          refine ⟨.cons phrase (.ofIs hcomma) list, ?_, ?_, ?_⟩
          · simp [Arguments.tokens, OperatorToken.ofIs, hphrase.tokens_eq, hrest, htokens]
          · simp [Arguments.trees, hphrase.tree_eq, htrees]
          · have := hphrase.fits
            simp only [Arguments.need]
            omega
        · rw [if_neg hcomma] at h
          exact hlast h

/-- A group is closed by the first token that its inside leaves. -/
theorem closeGroup_eq_ok {opening : Span} {inner whole : Parsed Token Expr bound} {depth : Nat}
    (h : closeGroup opening inner depth = .ok whole) :
    ∃ closing rest, inner.rest = closing :: rest ∧ closing.isOperator .closeParenthesis ∧
      whole.value = inner.value ∧ whole.rest = rest := by
  unfold closeGroup at h
  split at h
  · cases h
  · rename_i closing rest hrest
    split at h
    · rename_i hclose
      cases h
      exact ⟨closing, rest, hrest, hclose, rfl, rfl⟩
    · cases h

/-- A call is closed by the first token that its arguments leave. -/
theorem closeCall_eq_ok {ending : Nat} {name : Token} {list : Parsed Token (List Expr) bound}
    {depth : Nat} {whole : Parsed Token Expr bound}
    (h : closeCall ending name list depth = .ok whole) :
    ∃ closing rest, list.rest = closing :: rest ∧ closing.isOperator .closeParenthesis ∧
      whole.value = call name list.value closing.span ∧ whole.rest = rest := by
  unfold closeCall at h
  split at h
  · cases h
  · rename_i closing rest hrest
    split at h
    · rename_i hclose
      cases h
      exact ⟨closing, rest, hrest, hclose, rfl, rfl⟩
    · cases h

/-- A phrase of the next tighter level is one of the level. -/
theorem Phrase.Accounts.loosen {phrase : Phrase level.tighter} {tokens rest : List Token}
    {depth : Nat} {tree : Expr} (above : level ≠ .primary)
    (h : phrase.Accounts tokens depth tree rest) :
    (Phrase.chain above phrase .nil).Accounts tokens depth tree rest where
  tokens_eq := by simpa [Phrase.tokens, Links.tokens] using h.tokens_eq
  tree_eq := h.tree_eq
  fits := by simpa [Phrase.need, Links.need] using h.fits

theorem Sound.loosen {tokens : List Token} {depth : Nat}
    {result : Except Failure (Parsed Token Expr bound)} (above : level ≠ .primary)
    (sound : Sound level.tighter tokens depth result) : Sound level tokens depth result := by
  intro parsed h
  obtain ⟨phrase, hphrase⟩ := sound parsed h
  exact ⟨_, hphrase.loosen above⟩

/-- A sum, and what it is compared with, make a comparison. -/
theorem compareWith_sound {tokens : List Token} {left : Parsed Token Expr bound}
    {right : Rule Expr bound} {depth : Nat} {phrase : Phrase .sum}
    (hleft : phrase.Accounts tokens depth left.value left.rest)
    (sound : SoundRule .sum right) (hfree : depth ≤ depthLimit) :
    Sound .comparison tokens depth (compareWith left right depth) := by
  have halone : Sound .comparison tokens depth (.ok left) := by
    rintro parsed ⟨⟩
    exact ⟨_, Phrase.Accounts.loosen (show Level.comparison ≠ .primary by decide) hleft⟩
  unfold compareWith
  split
  · exact halone
  · rename_i token rest hrest
    split
    · exact halone
    · rename_i op hop
      intro parsed h
      obtain ⟨operand, hoperand, h⟩ := bind_eq_ok_iff.mp h
      obtain rfl := pure_eq_ok_iff.mp h
      obtain ⟨other, hother⟩ := sound _ _ _ hfree operand hoperand
      refine ⟨.compared phrase (.ofAmong hop) other, ?_, ?_, ?_⟩
      · simp [Phrase.tokens, OperatorToken.ofAmong, hleft.tokens_eq, hrest, hother.tokens_eq]
      · simp [Phrase.tree, OperatorToken.ofAmong, hleft.tree_eq, hother.tree_eq]
      · have := hleft.fits
        have := hother.fits
        simp only [Phrase.need]
        omega

/-- A sign or a `not` and an operand one level deeper. -/
theorem prefixed_sound {ops : List Operator} {sign : OperatorToken ops} {rest : List Token}
    {depth : Nat} {inner : Nat → Except Failure (Parsed Token Expr rest.length)}
    (sound : ∀ d, d ≤ depthLimit → Sound level rest d (inner d))
    (make : Phrase level → Phrase level)
    (tokens_make : ∀ phrase, (make phrase).tokens = sign.token :: phrase.tokens)
    (tree_make : ∀ phrase, (make phrase).tree = unary sign.op sign.token.span phrase.tree)
    (need_make : ∀ phrase, (make phrase).need = 1 + phrase.need) :
    Sound level (sign.token :: rest) depth (do
      let operand ← deeper sign.token.span rest depth inner
      pure ((operand.map (unary sign.op sign.token.span)).widen (Nat.le_succ _))) := by
  intro parsed h
  obtain ⟨operand, hoperand, h⟩ := bind_eq_ok_iff.mp h
  obtain ⟨hdeeper, hoperand⟩ := deeper_eq_ok hoperand
  obtain rfl := pure_eq_ok_iff.mp h
  obtain ⟨phrase, hphrase⟩ := sound _ hdeeper operand hoperand
  refine ⟨make phrase, ?_, ?_, ?_⟩
  · simp [tokens_make, hphrase.tokens_eq]
  · simp [tree_make, hphrase.tree_eq]
  · have := hphrase.fits
    rw [need_make]
    omega

/-- A group: its inside is one level deeper. -/
theorem group_sound {opening : Token} {rest : List Token} {depth : Nat}
    (hopen : opening.isOperator .openParenthesis)
    {inner : Nat → Except Failure (Parsed Token Expr rest.length)}
    (sound : ∀ d, d ≤ depthLimit → Sound .disjunction rest d (inner d)) :
    Sound .primary (opening :: rest) depth (do
      let inner ← deeper opening.span rest depth inner
      let group ← closeGroup opening.span inner depth
      pure (group.widen (Nat.le_succ rest.length))) := by
  intro parsed h
  obtain ⟨inner, hinner, h⟩ := bind_eq_ok_iff.mp h
  obtain ⟨hdeeper, hinner⟩ := deeper_eq_ok hinner
  obtain ⟨whole, hwhole, h⟩ := bind_eq_ok_iff.mp h
  obtain ⟨closing, after, hrest, hclose, hvalue, hafter⟩ := closeGroup_eq_ok hwhole
  obtain rfl := pure_eq_ok_iff.mp h
  obtain ⟨phrase, hphrase⟩ := sound _ hdeeper inner hinner
  refine ⟨.group (.ofIs hopen) phrase (.ofIs hclose), ?_, ?_, ?_⟩
  · simp [Phrase.tokens, OperatorToken.ofIs, hphrase.tokens_eq, hrest, hafter]
  · simp [Phrase.tree, hphrase.tree_eq, hvalue]
  · have := hphrase.fits
    simp only [Phrase.need]
    omega

/-- A call with arguments: they are one level deeper. -/
theorem call_sound {ending : Nat} {name opening : Token} {after : List Token} {depth : Nat}
    (identifier : name.kind = .identifier) (bare : name.isBracketed = false)
    (hopen : opening.isOperator .openParenthesis)
    {argument : Rule Expr (after.length + 1)} (sound : SoundRule .disjunction argument) :
    Sound .primary (name :: opening :: after) depth (do
      let list ← deeper opening.span after depth fun d =>
        arguments argument after (Nat.lt_succ_self _) d
      let whole ← closeCall ending name list depth
      pure (whole.widen (Nat.le_add_right after.length 2))) := by
  intro parsed h
  obtain ⟨list, hlist, h⟩ := bind_eq_ok_iff.mp h
  obtain ⟨hdeeper, hlist⟩ := deeper_eq_ok hlist
  obtain ⟨whole, hwhole, h⟩ := bind_eq_ok_iff.mp h
  obtain ⟨closing, rest, hrest, hclosing, hvalue, hafter⟩ := closeCall_eq_ok hwhole
  obtain rfl := pure_eq_ok_iff.mp h
  obtain ⟨phrases, htokens, htrees, hfits⟩ := arguments_sound sound after _ hdeeper hlist
  refine ⟨.call ⟨name, .ofIs hopen, .ofIs hclosing, identifier, bare⟩ phrases, ?_, ?_, ?_⟩
  · simp [Phrase.tokens, OperatorToken.ofIs, htokens, hrest, hafter]
  · simp [Phrase.tree, OperatorToken.ofIs, htrees, hvalue]
  · simp only [Phrase.need]
    omega

/-- **Soundness.**  Whatever is read off a token list is the tree of a phrase. -/
theorem Level.read_sound (ending : Nat) (level : Level) (tokens : List Token) (depth : Nat)
    (hfree : depth ≤ depthLimit) : Sound level tokens depth (level.read ending tokens depth) := by
  induction level, tokens, depth using Level.rule_induction with
  | chained level tokens depth hjoiners ih =>
      rw [read_chain ending hjoiners]
      exact chain_sound level ih (ne_primary_of_joiners hjoiners) hfree
  | unprefixed level tokens depth hprefixes hnone ih =>
      rw [read_unprefixed ending hprefixes hnone]
      exact Sound.loosen (ne_primary_of_prefixes hprefixes) (ih hfree)
  | negated token rest depth hnot ih =>
      rw [read_negated ending hnot]
      exact prefixed_sound ih (.negated (.ofIs hnot))
        (fun _ => rfl) (fun _ => rfl) (fun _ => rfl)
  | signed token op rest depth hop ih =>
      rw [read_signed ending hop]
      exact prefixed_sound ih (.signed (.ofAmong hop))
        (fun _ => rfl) (fun _ => rfl) (fun _ => rfl)
  | comparison tokens depth ihleft ihright =>
      rw [read_comparison]
      intro parsed h
      obtain ⟨left, hleft, h⟩ := bind_eq_ok_iff.mp h
      obtain ⟨phrase, hphrase⟩ := ihleft hfree left hleft
      exact compareWith_sound hphrase ihright hfree parsed h
  | missing depth =>
      rw [read_nil]
      rintro parsed ⟨⟩
  | literal token value rest depth hkind =>
      rw [read_literal ending hkind]
      rintro parsed ⟨⟩
      exact ⟨.literal token value hkind, rfl, rfl, hfree⟩
  | group token rest depth hkind ih =>
      rw [read_group ending hkind]
      exact group_sound (by simp [Token.isOperator, Token.operator?, hkind]) ih
  | misplaced token op rest depth hkind hop =>
      rw [read_operator ending hkind hop]
      rintro parsed ⟨⟩
  | name token rest depth hkind hrest =>
      rw [read_name ending hkind hrest]
      rintro parsed ⟨⟩
      exact ⟨.name token hkind, rfl, rfl, hfree⟩
  | emptyCall token opening closing rest depth hkind hbare hopen hclosing =>
      rw [read_emptyCall ending hkind hbare hopen hclosing]
      rintro parsed ⟨⟩
      exact ⟨.emptyCall ⟨token, .ofIs hopen, .ofIs hclosing, hkind, hbare⟩, rfl, rfl, hfree⟩
  | call token opening rest depth hkind hbare hopen hrest ih =>
      rw [read_call ending hkind hbare hopen hrest]
      exact call_sound hkind hbare hopen ih

end Grammar

end QueryFormula
