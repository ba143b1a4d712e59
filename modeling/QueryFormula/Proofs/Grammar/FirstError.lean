import QueryFormula.Proofs.Grammar.Prompt
import QueryFormula.Proofs.Grammar.Recognition
import QueryFormula.Token.Cursor

/-!
# Errors at the first token that rules a formula out

Every level of the grammar is prompt on all tokens (`Level.prompt`), by induction along
the rules.  Each rule has a lemma of its own; chains and arguments ask for operands that
are prompt on shorter lists.

Thus a formula is refused as soon as no formula begins with the tokens read so far
(`firstError_of_parse_error`).
-/

namespace QueryFormula

namespace Grammar

variable {α : Type} {ending bound depth : Nat} {front tokens : List Token}

/-- The level is prompt on all lists of fewer than `bound` tokens. -/
def PromptBelow (ending bound : Nat) (level : Level) : Prop :=
  ∀ tokens : List Token, tokens.length < bound → ∀ depth front,
    Prompt ending Opens front (level.reader ending depth) tokens

/-! ### Chains, comparisons and arguments -/

theorem closeParenthesis_not_mem_joiners (level : Level) :
    Operator.closeParenthesis ∉ level.joiners := by
  cases level <;> decide

theorem closable_tailReader (level : Level) (depth : Nat) (f : α → Expr) :
    Closable fun value => tailReader ending level depth (f value) := by
  rw [funext fun value => tailReader_eq ending level depth (f value)]
  exact closable_followed (closeParenthesis_not_mem_joiners level)

theorem prompt_tail {level : Level} (operand : PromptBelow ending bound level.tighter)
    (tokens : List Token) (within : tokens.length ≤ bound) (depth : Nat) (left : Expr)
    (front : List Token) :
    Prompt ending Closing front (tailReader ending level depth left) tokens := by
  rw [tailReader_eq]
  refine .followed (closeParenthesis_not_mem_joiners level) fun op token rest htokens => ?_
  have hless : rest.length < tokens.length := by simp [htokens]
  split
  · exact prompt_refuse token.span
  · refine Prompt.andThen (operand rest (by omega) _ _) (level.tighter.reader_shortens ending _)
      (fun right consumed left' _ hread => ?_) (closable_tailReader level _ _)
    have hshorter := level.tighter.reader_shortens ending _ _ _ _ hread
    exact prompt_tail operand left' (by omega) _ _ _
termination_by tokens.length

theorem prompt_chain {level : Level} (hjoiners : level.joiners ≠ [])
    (operand : PromptBelow ending (tokens.length + 1) level.tighter) :
    Prompt ending Opens front (level.reader ending depth) tokens := by
  rw [reader_chain ending hjoiners]
  refine Prompt.andThen (operand tokens (Nat.lt_succ_self _) depth front)
    (level.tighter.reader_shortens ending depth) (fun first consumed rest htokens _ => ?_)
    (closable_tailReader level depth id)
  have hle : rest.length ≤ tokens.length := by simp [htokens]
  exact prompt_tail operand rest (by omega) depth first _

theorem prompt_comparison
    (left : Prompt ending Opens front (Level.sum.reader ending depth) tokens)
    (right : PromptBelow ending tokens.length .sum) :
    Prompt ending Opens front (Level.comparison.reader ending depth) tokens := by
  have hops : Operator.closeParenthesis ∉ Operator.comparisons := by decide
  rw [reader_comparison]
  refine Prompt.andThen left (Level.sum.reader_shortens ending depth)
    (fun left consumed rest htokens _ => ?_) (closable_followed hops)
  refine .followed hops fun op token rest' hrest => ?_
  have hless : rest'.length < tokens.length := by
    simp only [htokens, hrest, List.length_append, List.length_cons]
    omega
  exact Prompt.andThen (right rest' hless depth _) (Level.sum.reader_shortens ending depth)
    (fun right _ _ _ _ => prompt_done _) (closable_done _)

theorem prompt_arguments (argument : PromptBelow ending bound .disjunction)
    (tokens : List Token) (within : tokens.length < bound) (depth : Nat) (front : List Token) :
    Prompt ending Opens front (argumentsReader ending depth) tokens := by
  have hops : Operator.closeParenthesis ∉ [Operator.comma] := by decide
  rw [argumentsReader_eq]
  refine Prompt.andThen (argument tokens within depth front)
    (Level.disjunction.reader_shortens ending depth) (fun first consumed rest htokens _ => ?_)
    (closable_followed hops)
  refine .followed hops fun _ token rest' hrest => ?_
  have hless : rest'.length < tokens.length := by
    simp only [htokens, hrest, List.length_append, List.length_cons]
    omega
  exact Prompt.andThen (prompt_arguments argument rest' (by omega) depth _)
    (argumentsReader_shortens ending depth) (fun others _ _ _ _ => prompt_done _)
    (closable_done _)
termination_by tokens.length

/-! ### Signs, groups and calls -/

/-- A sign or a `not`, and its operand one level deeper. -/
theorem prompt_sign {level : Level} {token : Token} {rest : List Token} {op : Operator}
    (hread : ∀ ts, level.reader ending depth (token :: ts) =
      (Reader.deeper token.span depth (level.reader ending)).andThen
        (fun operand => .done (unary op token.span operand)) ts)
    (operand : Prompt ending Opens (front ++ [token]) (level.reader ending (depth + 1)) rest) :
    Prompt ending Opens front (level.reader ending depth) (token :: rest) := by
  have hbehind : Prompt ending Opens (front ++ [token])
      (fun ts => level.reader ending depth (token :: ts)) rest := by
    rw [funext hread]
    exact Prompt.andThen (operand.deeper token.span)
      (.deeper (level.reader_shortens ending) token.span depth)
      (fun _ _ _ _ _ => prompt_done _) (closable_done _)
  exact hbehind.cons

/-- At the end, and at an operator that no operand begins with, an operand is
missing. -/
theorem prompt_missingOperand
    (h : ∀ token ∈ tokens.head?, ∃ op, token.kind = .operator op ∧ op ≠ .openParenthesis) :
    Prompt ending Opens front (Level.primary.reader ending depth) tokens := by
  have hmend : Mendable Opens (Level.primary.reader ending depth) tokens [] := by
    refine ⟨[truthToken], fun rest _ => ⟨.inr rfl, ?_⟩⟩
    exact ⟨_, reader_literal ending rfl rest depth⟩
  cases tokens with
  | nil =>
      refine ⟨fun value rest hread => ?_, fun error hread _ => ?_⟩
      · cases (reader_nil ending depth).symm.trans hread
      · cases (reader_nil ending depth).symm.trans hread
        exact .atEnd .operand hmend
  | cons token rest =>
      obtain ⟨op, hkind, hop⟩ := h token rfl
      have hrefused := fun ts => reader_operator ending hkind hop ts depth
      refine ⟨fun value left hread => ?_, fun error hread _ => ?_⟩
      · cases (hrefused rest).symm.trans hread
      · cases (hrefused rest).symm.trans hread
        exact .atToken (List.nil_append _).symm rfl rfl hrefused hmend

/-- A token that is an operand, in front of anything or of what has the same first
token. -/
theorem prompt_leaf {token : Token} {rest : List Token} {value : Expr}
    (hread : ∀ ts : List Token, ts.head? = rest.head? ∨ Closing ts →
      Level.primary.reader ending depth (token :: ts) = .ok (value, ts)) :
    Prompt ending Opens front (Level.primary.reader ending depth) (token :: rest) := by
  have hrest := hread rest (.inl rfl)
  refine ⟨fun found left hfound => ?_, fun error herror => ?_⟩
  · cases hrest.symm.trans hfound
    exact ⟨[token], rfl, hread⟩
  · cases hrest.symm.trans herror

/-- What stands in a group in front of the end is an expression. -/
theorem exists_phrase_of_deeper {span : Span} {value : Expr} {rest : List Token}
    (h : Reader.deeper span depth (Level.disjunction.reader ending) tokens = .ok (value, rest)) :
    ∃ phrase : Phrase .disjunction, tokens = phrase.tokens ++ rest := by
  unfold Reader.deeper at h
  split at h
  · cases h
  · rename_i hfree
    obtain ⟨parsed, hread, _, rfl⟩ := outcome_eq_ok h
    obtain ⟨phrase, hphrase⟩ :=
      Level.read_sound ending .disjunction tokens (depth + 1) (by omega) parsed hread
    exact ⟨phrase, hphrase.tokens_eq⟩

theorem prompt_group {token : Token} {rest : List Token}
    (hkind : token.kind = .operator .openParenthesis)
    (inner : ∀ d front, Prompt ending Opens front (Level.disjunction.reader ending d) rest) :
    Prompt ending Opens front (Level.primary.reader ending depth) (token :: rest) := by
  have hbehind : Prompt ending Opens (front ++ [token])
      (fun ts => Level.primary.reader ending depth (token :: ts)) rest := by
    rw [funext fun ts => reader_group ending hkind ts depth]
    refine Prompt.andThen ((inner _ _).deeper token.span)
      (.deeper (Level.disjunction.reader_shortens ending) token.span depth)
      (fun value consumed left hrest hread => ?_) closable_closed
    refine prompt_closed (fun hend => ?_) fun _ => ⟨trivial, rfl⟩
    obtain ⟨inside, hinside⟩ := exists_phrase_of_deeper hread
    have hconsumed : consumed = inside.tokens := List.append_cancel_right (hrest.symm.trans hinside)
    have hopens : token.isOperator .openParenthesis :=
      Token.isOperator_iff.mpr (by simp [Token.operator?, hkind])
    have hsplit : front ++ [token] ++ consumed = front ++ token :: inside.tokens := by
      rw [hconsumed, List.append_assoc]
      rfl
    exact .group inside hopens hsplit
  exact hbehind.cons

theorem prompt_emptyCall {token opening closing : Token} {rest : List Token}
    (hkind : token.kind = .identifier) (hbare : token.isBracketed = false)
    (hopen : opening.isOperator .openParenthesis)
    (hclosing : closing.isOperator .closeParenthesis) :
    Prompt ending Opens front (Level.primary.reader ending depth)
      (token :: opening :: closing :: rest) := by
  have hdone : Prompt ending Opens (front ++ [token] ++ [opening] ++ [closing])
      (fun ts => Level.primary.reader ending depth (token :: opening :: closing :: ts)) rest := by
    rw [funext fun ts => reader_emptyCall ending hkind hbare hopen hclosing ts depth]
    exact prompt_done _
  have hclosed : Prompt ending Opens (front ++ [token] ++ [opening])
      (fun ts => Level.primary.reader ending depth (token :: opening :: ts)) (closing :: rest) :=
    hdone.cons
  have hopened : Prompt ending Opens (front ++ [token])
      (fun ts => Level.primary.reader ending depth (token :: ts)) (opening :: closing :: rest) :=
    hclosed.cons
  exact hopened.cons

theorem prompt_call {token opening : Token} {rest : List Token}
    (hkind : token.kind = .identifier) (hbare : token.isBracketed = false)
    (hopen : opening.isOperator .openParenthesis)
    (hrest : ∀ next ∈ rest.head?, next.isOperator .closeParenthesis = false)
    (argument : PromptBelow ending (rest.length + 1) .disjunction) :
    Prompt ending Opens front (Level.primary.reader ending depth) (token :: opening :: rest) := by
  have hbehind : Prompt ending Opens (front ++ [token] ++ [opening])
      (fun ts => Level.primary.reader ending depth (token :: opening :: ts)) rest := by
    have hshort : (Reader.deeper opening.span depth (argumentsReader ending)).Shortens :=
      .deeper (argumentsReader_shortens ending) opening.span depth
    refine Prompt.congr (fun ts hts => reader_call ending hkind hbare hopen hts depth) hrest
      (fun ts hts => hts.head rfl) hshort.closed ?_
    exact Prompt.andThen
      ((prompt_arguments argument rest (Nat.lt_succ_self _) _ _).deeper opening.span) hshort
      (fun list _ _ _ _ => prompt_closed (fun _ => .call) fun _ => ⟨rfl, rfl⟩) closable_closed
  have hopened : Prompt ending Opens (front ++ [token])
      (fun ts => Level.primary.reader ending depth (token :: ts)) (opening :: rest) :=
    hbehind.cons
  exact hopened.cons

/-- A name that is not called.  No parenthesis opens at what closes the expression it ends. -/
theorem prompt_name {token : Token} {rest : List Token} (hkind : token.kind = .identifier)
    (hrest : token.isBracketed = false →
      ∀ next ∈ rest.head?, next.isOperator .openParenthesis = false) :
    Prompt ending Opens front (Level.primary.reader ending depth) (token :: rest) := by
  refine prompt_leaf fun ts hts => reader_name ending hkind (fun hbare next hnext => ?_) depth
  cases hts with
  | inl hsame => exact hrest hbare next (hsame ▸ hnext)
  | inr hcloses =>
      refine Bool.eq_false_iff.mpr fun hopen => ?_
      have := Token.isOperator_iff.mp (hcloses next hnext)
      rw [Token.isOperator_iff.mp hopen] at this
      cases this

/-- **Every level is prompt.** -/
theorem Level.prompt (ending : Nat) (level : Level) (tokens : List Token) (depth : Nat)
    (front : List Token) : Prompt ending Opens front (level.reader ending depth) tokens := by
  induction level, tokens, depth using Level.rule_induction generalizing front with
  | chained level tokens depth hjoiners ih => exact prompt_chain hjoiners ih
  | unprefixed level tokens depth hprefixes hnone ih =>
      exact Prompt.congr (fun ts hts => reader_unprefixed ending hprefixes hts depth) hnone
        (fun ts hts => hts.head rfl) (level.tighter.reader_shortens ending depth) (ih front)
  | negated token rest depth hnot ih =>
      exact prompt_sign (fun ts => reader_not ending hnot ts depth) (ih _ _)
  | signed token op rest depth hop ih =>
      exact prompt_sign (fun ts => reader_sign ending hop ts depth) (ih _ _)
  | comparison tokens depth ihleft ihright => exact prompt_comparison (ihleft front) ihright
  | missing depth => exact prompt_missingOperand (by simp)
  | literal token value rest depth hkind =>
      exact prompt_leaf fun ts _ => reader_literal ending hkind ts depth
  | group token rest depth hkind ih => exact prompt_group hkind ih
  | misplaced token op rest depth hkind hop =>
      refine prompt_missingOperand ?_
      rintro _ ⟨⟩
      exact ⟨op, hkind, hop⟩
  | name token rest depth hkind hrest => exact prompt_name hkind hrest
  | emptyCall token opening closing rest depth hkind hbare hopen hclosing =>
      exact prompt_emptyCall hkind hbare hopen hclosing
  | call token opening rest depth hkind hbare hopen hrest ih =>
      exact prompt_call hkind hbare hopen hrest ih

end Grammar

open Grammar

/-- A formula is read by a reader of the loosest level that has to reach the end. -/
theorem parse_eq_reader (source : String) (tokens : List Token) :
    parse source tokens =
      match Level.disjunction.reader (byteLength source.toList) 0 tokens with
      | .ok (tree, []) => .ok tree
      | .ok (_, token :: _) => .error ⟨.trailing token.text, token.span⟩
      | .error error => .error error := by
  unfold parse Parser.formula Parser.expression Parser.ofSource Level.reader
  cases Level.disjunction.read (byteLength source.toList) tokens 0 with
  | error failure => rfl
  | ok parsed =>
      rcases parsed with ⟨tree, rest, shorter⟩
      cases rest <;> rfl

/-- The error is reported where a formula is first ruled out.  That is a token: some
formula begins with the tokens in front of it, and whatever follows it, the error is
the same.  Or it is the end: some formula begins with all of the tokens and is longer. -/
inductive FirstError (source : String) (tokens : List Token) (error : ParseError) : Prop
  | atToken {before : List Token} {token : Token} {after : List Token}
      (split : tokens = before ++ token :: after) (fault : error.fault.IsAt token)
      (span : error.span = token.span)
      (begins : ∃ us tree, parse source (before ++ us) = .ok tree)
      (always : ∀ us, parse source (before ++ token :: us) = .error error)
  | atEnd (place : EndsOpen (byteLength source.toList) tokens error)
      (begins : ∃ us tree, us ≠ [] ∧ parse source (tokens ++ us) = .ok tree)

/-- Tokens that a reader of the loosest level could complete begin a formula. -/
theorem exists_parse_of_mendable {source : String} {tokens before : List Token}
    {entry : List Token → Prop}
    (h : Mendable entry (Level.disjunction.reader (byteLength source.toList) 0) tokens before) :
    ∃ us tree, parse source (before ++ us) = .ok tree := by
  obtain ⟨filler, hfiller⟩ := h
  obtain ⟨_, tree, htree⟩ := hfiller [] closing_nil
  rw [List.append_nil] at htree
  exact ⟨filler, tree, by rw [parse_eq_reader, htree]⟩

/-- **Errors are reported at the first token that rules a formula out.**  The depth
apart, a list of tokens is refused at the first token with which no formula goes on,
at the place of that token; or, if its tokens are all right, at its end. -/
theorem firstError_of_parse_error {source : String} {tokens : List Token} {error : ParseError}
    (h : parse source tokens = .error error) (hshallow : error.fault ≠ .tooDeep) :
    FirstError source tokens error := by
  have hprompt := Level.prompt (byteLength source.toList) .disjunction tokens 0 []
  have hparse := h
  rw [parse_eq_reader] at hparse
  cases hread : Level.disjunction.reader (byteLength source.toList) 0 tokens with
  | error error' =>
      rw [hread] at hparse
      cases hparse
      cases hprompt.refused error hread hshallow with
      | atToken hsplit hfault hspan halways hmend =>
          refine .atToken hsplit hfault hspan (exists_parse_of_mendable hmend) fun us => ?_
          rw [parse_eq_reader, halways us]
      | atEnd hplace hmend =>
          obtain ⟨us, tree, htree⟩ := exists_parse_of_mendable hmend
          refine .atEnd hplace ⟨us, tree, ?_, htree⟩
          rintro rfl
          rw [List.append_nil, h] at htree
          cases htree
  | ok found =>
      -- a complete expression, and a token behind it
      rcases found with ⟨tree, _ | ⟨token, after⟩⟩
      · rw [hread] at hparse
        cases hparse
      · rw [hread] at hparse
        cases hparse
        obtain ⟨consumed, hsplit, hsame⟩ := hprompt.found tree (token :: after) hread
        refine .atToken hsplit rfl rfl ⟨[], tree, ?_⟩ fun us => ?_
        · rw [parse_eq_reader, hsame [] (.inr closing_nil)]
        · rw [parse_eq_reader, hsame (token :: us) (.inl rfl)]

/-- Behind a sum in a group the end comes too early, and the parenthesis that opens the
group is at fault. -/
theorem firstError_openGroup :
    parse "(1 + 2" (tokenize "(1 + 2").tokens = .error ⟨.unclosedGroup, ⟨0, 1⟩⟩ ∧
      FirstError "(1 + 2" (tokenize "(1 + 2").tokens ⟨.unclosedGroup, ⟨0, 1⟩⟩ := by
  have h : parse "(1 + 2" (tokenize "(1 + 2").tokens = .error ⟨.unclosedGroup, ⟨0, 1⟩⟩ :=
    error?_eq_some_iff.mp (by decide +kernel)
  exact ⟨h, firstError_of_parse_error h (by decide)⟩

end QueryFormula
