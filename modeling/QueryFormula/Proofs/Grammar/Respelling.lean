import QueryFormula.Proofs.Catalog
import QueryFormula.Proofs.Grammar.Called
import QueryFormula.Proofs.Token.Respelling

/-!
# The grammar and the spelling of tokens

Of a token the grammar sees its class and its place (`Token.view`); of a name it sees the text
too, but of a name that is called only the clause.  Lists of tokens that look the same are
derived alike (`parse_of_views`).  Tokens in another spelling look the same, unless a name is
called that is that of no function (`Respelled.views_eq`).
-/

namespace QueryFormula

/-! ### What the grammar sees -/

/-- What the grammar sees of a token. -/
structure TokenView where
  kind : TokenClass
  span : Span
  /-- The token is a name that is called. -/
  called : Bool
  /-- The text of a name; of a called one, the operator of the clause. -/
  word : String
deriving DecidableEq

/-- What the grammar sees of a token that `next` comes behind. -/
def Token.view (token : Token) (next : Option Token) : TokenView where
  kind := token.kind
  span := token.span
  called := token.isCalled next
  word :=
    if token.isCalled next then (clauseNamed? token.text).getD token.text
    else if token.kind = .identifier then token.text
    else ""

/-- What the grammar sees of some tokens. -/
def views : List Token → List TokenView
  | [] => []
  | token :: rest => token.view rest.head? :: views rest

namespace Grammar

theorem views_cons {token : Token} {rest ts : List Token} (h : views (token :: rest) = views ts) :
    ∃ token' rest', ts = token' :: rest' ∧ token'.view rest'.head? = token.view rest.head? ∧
      views rest = views rest' := by
  cases ts with
  | nil => cases h
  | cons token' rest' =>
      obtain ⟨hview, hrest⟩ := List.cons.inj h
      exact ⟨token', rest', rfl, hview.symm, hrest⟩

/-- What looks like an operator is this operator. -/
theorem views_sign {ops : List Operator} {sign : OperatorToken ops} {rest ts : List Token}
    (h : views (sign.token :: rest) = views ts) :
    ∃ (sign' : OperatorToken ops) (rest' : List Token), ts = sign'.token :: rest' ∧
      sign'.op = sign.op ∧ sign'.token.span = sign.token.span ∧ views rest = views rest' := by
  obtain ⟨token', rest', rfl, hview, hrest⟩ := views_cons h
  have hkind : token'.kind = sign.token.kind := congrArg TokenView.kind hview
  have hop : token'.operator? = some sign.op := by
    rw [Token.operator?, hkind]
    exact sign.operator_eq
  exact ⟨⟨token', sign.op, hop, sign.among⟩, rest', rfl, rfl, congrArg TokenView.span hview, hrest⟩

/-- A name that is called looks like another name that calls the same clause. -/
theorem views_frame {frame : CallTokens} {rest ts : List Token}
    (h : views (frame.name :: frame.opening.token :: rest) = views ts) :
    ∃ (name : Token) (opening : OperatorToken [.openParenthesis]) (rest' : List Token),
      ts = name :: opening.token :: rest' ∧ name.kind = .identifier ∧ name.isBracketed = false ∧
        (∀ xs close, call name xs close = call frame.name xs close) ∧ views rest = views rest' := by
  obtain ⟨name, tail, rfl, hview, htail⟩ := views_cons h
  obtain ⟨opening, rest', rfl, hop, hspan, hrest⟩ := views_sign htail
  have hcalled : frame.name.isCalled (some frame.opening.token) = true :=
    Token.isCalled_iff.mpr ⟨frame.identifier, frame.bare, frame.opening.isOperator⟩
  have hcalled' : name.isCalled (some opening.token) = true :=
    (congrArg TokenView.called hview).trans hcalled
  obtain ⟨hkind, hbare, -⟩ := Token.isCalled_iff.mp hcalled'
  have hword := congrArg TokenView.word hview
  simp only [Token.view, List.head?_cons, hcalled, hcalled', if_true] at hword
  have hplace : name.span = frame.name.span := congrArg TokenView.span hview
  refine ⟨name, opening, rest', rfl, hkind, hbare, fun xs close => ?_, hrest⟩
  rw [call, call, hword, hplace]

/-- A name that is not called looks like no other. -/
theorem eq_of_view {token token' : Token} {next next' : Option Token}
    (h : token'.view next' = token.view next) (hname : token.kind = .identifier)
    (huncalled : token.isCalled next = false) : token' = token := by
  have huncalled' : token'.isCalled next' = false := (congrArg TokenView.called h).trans huncalled
  have hkind : token'.kind = token.kind := congrArg TokenView.kind h
  have hspan : token'.span = token.span := congrArg TokenView.span h
  have htext := congrArg TokenView.word h
  simp only [Token.view, huncalled, huncalled', hkind, hname, if_true, Bool.false_eq_true,
    if_false] at htext
  rcases token with ⟨kind, text, span⟩
  rcases token' with ⟨kind', text', span'⟩
  cases hkind
  cases hspan
  cases htext
  rfl

theorem ContinuesNoCall.isCalled_eq {after : List Token} (h : ContinuesNoCall after)
    (token : Token) : token.isCalled after.head? = false := by
  cases after with
  | nil => simp [Token.isCalled]
  | cons next after =>
      have hnext : next.isOperator .openParenthesis = false := h next rfl
      simp [Token.isCalled, hnext]

mutual

/-- **What looks like a phrase** is a phrase for the same tree. -/
theorem Phrase.respell {level : Level} {after ts : List Token}
    (hafter : ContinuesNoCall after) :
    (phrase : Phrase level) → views (phrase.tokens ++ after) = views ts →
      ∃ (phrase' : Phrase level) (after' : List Token), ts = phrase'.tokens ++ after' ∧
        phrase'.tree = phrase.tree ∧ phrase'.need = phrase.need ∧ views after = views after'
  | .literal token value is, h => by
      obtain ⟨token', after', rfl, hview, hrest⟩ := views_cons h
      have hkind : token'.kind = .literal value := (congrArg TokenView.kind hview).trans is
      have hspan : token'.span = token.span := congrArg TokenView.span hview
      refine ⟨.literal token' value hkind, after', rfl, ?_, rfl, hrest⟩
      rw [Phrase.tree, Phrase.tree, hspan]
  | .name token is, h => by
      obtain ⟨token', after', rfl, hview, hrest⟩ := views_cons h
      obtain rfl := eq_of_view hview is (hafter.isCalled_eq token)
      exact ⟨.name token' is, after', rfl, rfl, rfl, hrest⟩
  | .emptyCall frame, h => by
      obtain ⟨name, opening, tail, rfl, hname, hbare, hcall, htail⟩ := views_frame h
      obtain ⟨closing, after', rfl, -, hspan, hrest⟩ := views_sign htail
      refine ⟨.emptyCall ⟨name, opening, closing, hname, hbare⟩, after', rfl, ?_, rfl, hrest⟩
      rw [Phrase.tree, Phrase.tree, hspan, hcall]
  | .call frame list, h => by
      rw [Phrase.tokens, List.cons_append, List.cons_append, List.append_assoc] at h
      obtain ⟨name, opening, tail, rfl, hname, hbare, hcall, htail⟩ := views_frame h
      have hends := frame.closing.continuesNoCall (by decide) after
      obtain ⟨list', tail, rfl, htrees, hneed, hclosing⟩ := list.respell hends htail
      obtain ⟨closing, after', rfl, -, hspan, hrest⟩ := views_sign hclosing
      refine ⟨.call ⟨name, opening, closing, hname, hbare⟩ list', after', ?_, ?_, ?_, hrest⟩
      · simp [Phrase.tokens]
      · rw [Phrase.tree, Phrase.tree, hspan, hcall, htrees]
      · rw [Phrase.need, Phrase.need, hneed]
  | .group opening inner closing, h => by
      rw [Phrase.tokens, List.cons_append, List.append_assoc] at h
      obtain ⟨opening', tail, rfl, -, -, htail⟩ := views_sign h
      have hends := closing.continuesNoCall (by decide) after
      obtain ⟨inner', tail, rfl, htree, hneed, hclosing⟩ := inner.respell hends htail
      obtain ⟨closing', after', rfl, -, -, hrest⟩ := views_sign hclosing
      refine ⟨.group opening' inner' closing', after', ?_, ?_, ?_, hrest⟩
      · simp [Phrase.tokens]
      · rw [Phrase.tree, Phrase.tree, htree]
      · rw [Phrase.need, Phrase.need, hneed]
  | .signed sign operand, h => by
      obtain ⟨sign', tail, rfl, hop, hspan, htail⟩ := views_sign h
      obtain ⟨operand', after', rfl, htree, hneed, hrest⟩ := operand.respell hafter htail
      refine ⟨.signed sign' operand', after', rfl, ?_, ?_, hrest⟩
      · rw [Phrase.tree, Phrase.tree, hop, hspan, htree]
      · rw [Phrase.need, Phrase.need, hneed]
  | .negated sign operand, h => by
      obtain ⟨sign', tail, rfl, hop, hspan, htail⟩ := views_sign h
      obtain ⟨operand', after', rfl, htree, hneed, hrest⟩ := operand.respell hafter htail
      refine ⟨.negated sign' operand', after', rfl, ?_, ?_, hrest⟩
      · rw [Phrase.tree, Phrase.tree, hop, hspan, htree]
      · rw [Phrase.need, Phrase.need, hneed]
  | .compared left sign right, h => by
      rw [Phrase.tokens, List.append_assoc] at h
      have hends := sign.continuesNoCall (by decide) (right.tokens ++ after)
      obtain ⟨left', tail, rfl, hleft, hneedLeft, htail⟩ := left.respell hends h
      obtain ⟨sign', tail, rfl, hop, -, hoperand⟩ := views_sign htail
      obtain ⟨right', after', rfl, hright, hneedRight, hrest⟩ := right.respell hafter hoperand
      refine ⟨.compared left' sign' right', after', ?_, ?_, ?_, hrest⟩
      · simp [Phrase.tokens]
      · rw [Phrase.tree, Phrase.tree, hleft, hop, hright]
      · rw [Phrase.need, Phrase.need, hneedLeft, hneedRight]
  | .chain above first links, h => by
      rw [Phrase.tokens, List.append_assoc] at h
      have hends := links.continuesNoCall.append hafter
      obtain ⟨first', tail, rfl, htree, hneed, htail⟩ := first.respell hends h
      obtain ⟨links', after', rfl, hextend, hneeds, hrest⟩ := links.respell hafter htail
      refine ⟨.chain above first' links', after', ?_, ?_, ?_, hrest⟩
      · simp [Phrase.tokens]
      · rw [Phrase.tree, Phrase.tree, hextend, htree]
      · rw [Phrase.need, Phrase.need, hneeds, hneed, htree]

/-- What looks like links joins the same operands. -/
theorem Links.respell {level : Level} {after ts : List Token}
    (hafter : ContinuesNoCall after) :
    (links : Links level) → views (links.tokens ++ after) = views ts →
      ∃ (links' : Links level) (after' : List Token), ts = links'.tokens ++ after' ∧
        (∀ left, links'.extend left = links.extend left) ∧
        (∀ left switches, links'.need left switches = links.need left switches) ∧
        views after = views after'
  | .nil, h => ⟨.nil, ts, rfl, fun _ => rfl, fun _ _ => rfl, h⟩
  | .cons sign operand links, h => by
      rw [Links.tokens, List.cons_append, List.append_assoc] at h
      obtain ⟨sign', tail, rfl, hop, -, htail⟩ := views_sign h
      have hends := links.continuesNoCall.append hafter
      obtain ⟨operand', tail, rfl, htree, hneed, hlinks⟩ := operand.respell hends htail
      obtain ⟨links', after', rfl, hextend, hneeds, hrest⟩ := links.respell hafter hlinks
      refine ⟨.cons sign' operand' links', after', ?_, ?_, ?_, hrest⟩
      · simp [Links.tokens]
      · intro left
        rw [Links.extend, Links.extend, hextend, hop, htree]
      · intro left switches
        rw [Links.need, Links.need, hneeds, hop, htree, hneed]

/-- What looks like arguments stands for the same trees. -/
theorem Arguments.respell {after ts : List Token}
    (hafter : ContinuesNoCall after) :
    (list : Arguments) → views (list.tokens ++ after) = views ts →
      ∃ (list' : Arguments) (after' : List Token), ts = list'.tokens ++ after' ∧
        list'.trees = list.trees ∧ list'.need = list.need ∧ views after = views after'
  | .last argument, h => by
      obtain ⟨argument', after', rfl, htree, hneed, hrest⟩ := argument.respell hafter h
      refine ⟨.last argument', after', rfl, ?_, ?_, hrest⟩
      · rw [Arguments.trees, Arguments.trees, htree]
      · rw [Arguments.need, Arguments.need, hneed]
  | .cons argument comma others, h => by
      rw [Arguments.tokens, List.append_assoc] at h
      have hends := comma.continuesNoCall (by decide) (others.tokens ++ after)
      obtain ⟨argument', tail, rfl, htree, hneed, htail⟩ := argument.respell hends h
      obtain ⟨comma', tail, rfl, -, -, hothers⟩ := views_sign htail
      obtain ⟨others', after', rfl, htrees, hneeds, hrest⟩ := others.respell hafter hothers
      refine ⟨.cons argument' comma' others', after', ?_, ?_, ?_, hrest⟩
      · simp [Arguments.tokens]
      · rw [Arguments.trees, Arguments.trees, htree, htrees]
      · rw [Arguments.need, Arguments.need, hneed, hneeds]

end

end Grammar

/-- **What looks the same is read alike.** -/
theorem parse_of_views {source source' : String} {tokens tokens' : List Token} {tree : Expr}
    (h : parse source tokens = .ok tree) (hviews : views tokens = views tokens') :
    parse source' tokens' = .ok tree := by
  obtain ⟨phrase, rfl, rfl, hneed⟩ := exists_phrase_of_parse h
  rw [← List.append_nil phrase.tokens] at hviews
  obtain ⟨phrase', after', rfl, htree, hneed', hafter⟩ :=
    phrase.respell (fun _ hnext => by cases hnext) hviews
  obtain rfl : after' = [] := by
    cases after' with
    | nil => rfl
    | cons _ _ => cases hafter
  rw [List.append_nil, ← htree]
  exact parse_of_phrase source' phrase' (hneed' ▸ hneed)

/-! ### Tokens in another spelling -/

theorem calledNames_cons (token : Token) (rest : List Token) :
    calledNames (token :: rest) =
      (if token.isCalled rest.head? then [token] else []) ++ calledNames rest := by
  cases rest with
  | nil => simp [calledNames, Token.isCalled]
  | cons next rest => simp [calledNames, Token.isCalled, and_assoc]

theorem Token.isBracketed_eq {token token' : Token}
    (h : SameLetters token.text.toList token'.text.toList) :
    token'.isBracketed = token.isBracketed := by
  have hopens : ∀ {cs cs' : List Char}, SameLetters cs cs' → cs.head? = some '[' →
      cs'.head? = some '[' := by
    intro cs cs' hletters hhead
    obtain ⟨rest, rfl⟩ := List.head?_eq_some_iff.mp hhead
    obtain ⟨rest', rfl, -⟩ := hletters.of_sign (by decide)
    rfl
  rw [Bool.eq_iff_iff, Token.isBracketed, Token.isBracketed, beq_iff_eq, beq_iff_eq]
  exact ⟨hopens h.symm, hopens h⟩

/-- What calls a name in one spelling calls it in the other. -/
theorem Respelled.isCalled_eq {rest rest' : List Token} (h : Respelled rest rest')
    {token token' : Token} (hkind : token'.kind = token.kind)
    (hletters : SameLetters token.text.toList token'.text.toList) :
    token'.isCalled rest'.head? = token.isCalled rest.head? := by
  have hnext : rest'.head?.any (·.isOperator .openParenthesis) =
      rest.head?.any (·.isOperator .openParenthesis) := by
    cases h with
    | nil => rfl
    | cons kind _ _ _ _ => simp [Token.isOperator, Token.operator?, kind]
  rw [Token.isCalled, Token.isCalled, hkind, Token.isBracketed_eq hletters, hnext]

/-- A called name may be written otherwise if it calls the same clause; any other name may
not. -/
theorem Token.view_eq {token token' : Token} {next next' : Option Token}
    (hkind : token'.kind = token.kind) (hspan : token'.span = token.span)
    (hcalled : token'.isCalled next' = token.isCalled next)
    (hclause : token.isCalled next = true →
      (clauseNamed? token'.text).getD token'.text = (clauseNamed? token.text).getD token.text)
    (htext : token.kind = .identifier → token.isCalled next = false → token'.text = token.text) :
    token.view next = token'.view next' := by
  rw [Token.view, Token.view, hkind, hspan, hcalled]
  cases hcall : token.isCalled next with
  | true => simp [hclause hcall]
  | false =>
      by_cases hname : token.kind = .identifier
      · simp [hname, htext hname hcall]
      · simp [hname]

/-- A called name that no function has is written differently in two lists of tokens. -/
structure Miscalled (tokens tokens' : List Token) (name name' : Token) : Prop where
  called : name ∈ calledNames tokens
  called' : name' ∈ calledNames tokens'
  span : name'.span = name.span
  text : name'.text ≠ name.text
  noFunction : clauseNamed? name.text = none
  noFunction' : clauseNamed? name'.text = none

theorem Miscalled.cons {tokens tokens' : List Token} {name name' : Token}
    (h : Miscalled tokens tokens' name name') (token token' : Token) :
    Miscalled (token :: tokens) (token' :: tokens') name name' := by
  have hmem : ∀ {token name : Token} {tokens : List Token}, name ∈ calledNames tokens →
      name ∈ calledNames (token :: tokens) := by
    intro token name tokens hname
    rw [calledNames_cons]
    exact List.mem_append_right _ hname
  exact { h with called := hmem h.called, called' := hmem h.called' }

/-- **Tokens in another spelling** look the same, unless a name is called that no function
has. -/
theorem Respelled.views_eq {tokens tokens' : List Token} (h : Respelled tokens tokens') :
    views tokens = views tokens' ∨ ∃ name name', Miscalled tokens tokens' name name' := by
  induction h with
  | nil => exact .inl rfl
  | @cons token token' rest rest' kind span letters exact others ih =>
      have hcalled := others.isCalled_eq kind letters
      have hclause := clauseNamed?_sameLetters letters
      rcases ih with hrest | ⟨name, name', hname⟩
      · -- only a called name that no function has is seen with its own text
        by_cases hfault : token.isCalled rest.head? = true ∧ token'.text ≠ token.text ∧
          clauseNamed? token.text = none
        · obtain ⟨hcall, htext, hnone⟩ := hfault
          refine .inr ⟨token, token', ?_, ?_, span, htext, hnone, hclause.trans hnone⟩
          · simp [calledNames_cons, hcall]
          · simp [calledNames_cons, hcalled, hcall]
        · left
          rw [views, views, ← hrest]
          refine congrArg (· :: views rest) (Token.view_eq kind span hcalled ?_ ?_)
          · intro hcall
            cases hnone : clauseNamed? token.text with
            | some op =>
                rw [hclause, hnone]
                rfl
            | none =>
                have htext : token'.text = token.text := by
                  by_contra hne
                  exact hfault ⟨hcall, hne, hnone⟩
                rw [htext, hnone]
          · intro hname hcall
            have hcase : token.ignoresCase rest.head? = false := by
              rwa [Token.ignoresCase, hname]
            rw [exact hcase]
      · exact .inr ⟨name, name', hname.cons token token'⟩

end QueryFormula
