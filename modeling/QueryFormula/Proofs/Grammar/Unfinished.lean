import QueryFormula.Grammar.Parser
import QueryFormula.Proofs.Grammar.Soundness
import QueryFormula.Token.Cursor

/-!
# What a reading that fails keeps

A level of nesting that a group, a call, a sign or a `not` takes is given back
whatever becomes of its inside.  A level that a switch of operator takes is given
back where its chain ends; a chain that is broken off does not end.

`Unfinished` is a derivation that stops: its constructors are the rules of the
grammar, each read up to some point.  With the tokens that were read it counts the
switches of all the chains that stand open there, and these are the levels that a
parser keeps (`Parser.keeps_after`).
-/

namespace QueryFormula

namespace Grammar

mutual

/-- An expression of a level that is read in part: the tokens of it that were read, and
the levels that its open chains hold. -/
inductive Unfinished : Level → List Token → Nat → Prop
  /-- The next token, or the end, is refused. -/
  | stopped {level : Level} : Unfinished level [] 0
  | signed (sign : OperatorToken [.plus, .minus]) {read : List Token} {held : Nat}
      (operand : Unfinished .signed read held) : Unfinished .signed (sign.token :: read) held
  | negated (sign : OperatorToken [.not]) {read : List Token} {held : Nat}
      (operand : Unfinished .negation read held) :
      Unfinished .negation (sign.token :: read) held
  | group (opening : OperatorToken [.openParenthesis]) {read : List Token} {held : Nat}
      (inner : Unfinished .disjunction read held) :
      Unfinished .primary (opening.token :: read) held
  | unclosedGroup (opening : OperatorToken [.openParenthesis]) (inner : Phrase .disjunction) :
      Unfinished .primary (opening.token :: inner.tokens) 0
  /-- The parenthesis behind the name of a function is refused. -/
  | called (name : Token) (identifier : name.kind = .identifier) : Unfinished .primary [name] 0
  | call (name : Token) (identifier : name.kind = .identifier)
      (opening : OperatorToken [.openParenthesis]) {read : List Token} {held : Nat}
      (arguments : UnfinishedArguments read held) :
      Unfinished .primary (name :: opening.token :: read) held
  | unclosedCall (name : Token) (identifier : name.kind = .identifier)
      (opening : OperatorToken [.openParenthesis]) (arguments : Arguments) :
      Unfinished .primary (name :: opening.token :: arguments.tokens) 0
  | compared (left : Phrase .sum) (sign : OperatorToken Operator.comparisons)
      {read : List Token} {held : Nat} (right : Unfinished .sum read held) :
      Unfinished .comparison (left.tokens ++ sign.token :: read) held
  | first {level : Level} (above : level ≠ .primary) {read : List Token} {held : Nat}
      (first : Unfinished level.tighter read held) : Unfinished level read held
  | chain {level : Level} (above : level ≠ .primary) (first : Phrase level.tighter)
      {read : List Token} {held : Nat} (links : UnfinishedLinks level first.tree 0 read held) :
      Unfinished level (first.tokens ++ read) held

/-- The links of a chain behind the tree `left`, read in part, where `switches` operators of
the chain have begun a new clause so far. -/
inductive UnfinishedLinks : Level → Expr → Nat → List Token → Nat → Prop
  /-- The next operator is refused. -/
  | stopped {level : Level} {left : Expr} {switches : Nat} :
      UnfinishedLinks level left switches [] switches
  | operand {level : Level} {left : Expr} {switches : Nat}
      (sign : OperatorToken level.joiners) {read : List Token} {held : Nat}
      (operand : Unfinished level.tighter read held) :
      UnfinishedLinks level left switches (sign.token :: read)
        (switchesAfter left sign.op switches + held)
  | cons {level : Level} {left : Expr} {switches : Nat}
      (sign : OperatorToken level.joiners) (operand : Phrase level.tighter)
      {read : List Token} {held : Nat}
      (links : UnfinishedLinks level (appendOperand left sign.op operand.tree)
        (switchesAfter left sign.op switches) read held) :
      UnfinishedLinks level left switches (sign.token :: (operand.tokens ++ read)) held

/-- Arguments of a call, read in part. -/
inductive UnfinishedArguments : List Token → Nat → Prop
  | last {read : List Token} {held : Nat} (argument : Unfinished .disjunction read held) :
      UnfinishedArguments read held
  | cons (argument : Phrase .disjunction) (comma : OperatorToken [.comma])
      {read : List Token} {held : Nat} (others : UnfinishedArguments read held) :
      UnfinishedArguments (argument.tokens ++ comma.token :: read) held

end

/-- Reading has failed behind a part of the tokens, at the next token or in front of it, and
keeps the levels that the part holds. -/
inductive Stopped (part : List Token → Nat → Prop) (tokens : List Token) (depth : Nat)
    (failure : Failure) : Prop
  | intro {read : List Token} {held : Nat} (refused : Option Token) (of_part : part read held)
      (split : tokens = read ++ (refused.toList ++ failure.rest))
      (depth_eq : failure.depth = depth + held) (bounded : failure.depth ≤ depthLimit)

/-- Any failure of a reading leaves an expression of the level unfinished. -/
def Halting (level : Level) {bound : Nat} (tokens : List Token) (depth : Nat)
    (result : Except Failure (Parsed Token Expr bound)) : Prop :=
  ∀ failure, result = .error failure → Stopped (Unfinished level) tokens depth failure

/-- A rule is halting wherever a level is left. -/
def HaltingRule (level : Level) {bound : Nat} (rule : Rule Expr bound) : Prop :=
  ∀ tokens within depth, depth ≤ depthLimit →
    Halting level tokens depth (rule tokens within depth)

variable {level : Level} {bound depth : Nat} {tokens : List Token} {failure : Failure}
  {part whole : List Token → Nat → Prop}

/-- A part of what stands behind some tokens is a part of both. -/
theorem Stopped.behind (front : List Token) (h : Stopped part tokens depth failure)
    (join : ∀ read held, part read held → whole (front ++ read) held) :
    Stopped whole (front ++ tokens) depth failure := by
  obtain ⟨refused, hpart, hsplit, hdepth, hbounded⟩ := h
  refine ⟨refused, join _ _ hpart, ?_, hdepth, hbounded⟩
  rw [hsplit, List.append_assoc]

/-- Levels that were taken in front of a part are held as well. -/
theorem Stopped.hold {taken : Nat}
    (h : Stopped (fun read held => part read (taken + held)) tokens (depth + taken) failure) :
    Stopped part tokens depth failure := by
  obtain ⟨refused, hpart, hsplit, hdepth, hbounded⟩ := h
  refine ⟨refused, hpart, hsplit, ?_, hbounded⟩
  rw [hdepth, Nat.add_assoc]

/-- What is refused at once leaves nothing behind. -/
theorem Stopped.at {fault : ParseFault} {span : Span} {rest : List Token}
    (refused : Option Token) (h : part [] 0) (hfree : depth ≤ depthLimit) :
    Stopped part (refused.toList ++ rest) depth ⟨⟨fault, span⟩, rest, depth⟩ :=
  ⟨refused, h, rfl, rfl, hfree⟩

/-- **Levels that are given back.**  A level is refused, or what fails inside it keeps no
more than its own. -/
theorem deeper_eq_error {α : Type} {span : Span} {inner : Nat → Except Failure α}
    (h : deeper span tokens depth inner = .error failure) :
    failure = ⟨⟨.tooDeep, span⟩, tokens, depth⟩ ∨
      depth + 1 ≤ depthLimit ∧ ∃ failed : Failure, inner (depth + 1) = .error failed ∧
        failure = { failed with depth := failed.depth - 1 } := by
  unfold deeper at h
  split at h
  · exact .inl (Except.error.inj h).symm
  · rename_i hfull
    cases hinner : inner (depth + 1) with
    | ok value => simp [hinner] at h
    | error failed =>
        simp only [hinner, Except.error.injEq] at h
        exact .inr ⟨by omega, failed, rfl, h.symm⟩

theorem Stopped.giveBack {failed : Failure} (h : Stopped part tokens (depth + 1) failed) :
    Stopped part tokens depth { failed with depth := failed.depth - 1 } := by
  obtain ⟨refused, hpart, hsplit, hdepth, hbounded⟩ := h
  refine ⟨refused, hpart, hsplit, ?_, ?_⟩
  · simp only [hdepth]
    omega
  · simp only
    omega

/-- **Chains.**  What fails behind an operand leaves links unfinished. -/
theorem chainTail_halting {operand : Rule Expr bound} (sound : SoundRule level.tighter operand)
    (halting : HaltingRule level.tighter operand) {base : Nat} (left : Expr)
    (tokens : List Token) (within : tokens.length < bound) (depth : Nat) {switches : Nat}
    (hdepth : depth = base + switches) (hfree : depth ≤ depthLimit)
    (h : chainTail level.joiners operand left tokens within depth = .error failure) :
    Stopped (UnfinishedLinks level left switches) tokens base failure := by
  fun_induction chainTail level.joiners operand left tokens within depth
    generalizing switches with
  | case1 left depth => cases h
  | case2 left depth token rest => cases h
  | case3 left depth token rest within op hop hfull =>
      obtain rfl := Except.error.inj h
      exact ⟨some token, .stopped, rfl, hdepth, hfree⟩
  | case4 left depth token rest within op hop hroom deeper _ =>
      rename_i ih
      have hdeeper : deeper = base + switchesAfter left op switches := by
        simp only [deeper, switchesAfter]
        split <;> omega
      have hroomy : deeper ≤ depthLimit := by
        simp only [deeper]
        simp only [Bool.and_eq_true, Bool.not_eq_true', decide_eq_true_eq] at hroom
        split <;> grind
      let sign : OperatorToken level.joiners := .ofAmong hop
      obtain h | ⟨right, hright, h⟩ := bind_eq_error_iff.mp h
      · have hstopped := halting _ _ _ hroomy failure h
        rw [hdeeper] at hstopped
        exact .hold (hstopped.behind [token] fun _ _ hpart => .operand sign hpart)
      · obtain ⟨phrase, hphrase⟩ := sound _ _ _ hroomy right hright
        obtain h | ⟨_, _, h⟩ := bind_eq_error_iff.mp h
        · have hsplit : token :: rest = (token :: phrase.tokens) ++ right.rest :=
            congrArg (token :: ·) hphrase.tokens_eq
          have hstopped := ih right hdeeper hroomy h
          rw [← hphrase.tree_eq] at hstopped
          rw [hsplit]
          exact hstopped.behind _ fun _ _ hpart => .cons sign phrase hpart
        · cases h

/-- A chain fails in its first operand or behind it. -/
theorem chain_halting (level : Level) {operand : Rule Expr (tokens.length + 1)}
    (sound : SoundRule level.tighter operand) (halting : HaltingRule level.tighter operand)
    (above : level ≠ .primary) (hfree : depth ≤ depthLimit) :
    Halting level tokens depth (chain level.joiners tokens operand depth) := by
  intro failure h
  obtain h | ⟨first, hfirst, h⟩ := bind_eq_error_iff.mp h
  · exact (halting _ _ _ hfree failure h).behind [] fun _ _ hpart => .first above hpart
  · obtain ⟨phrase, hphrase⟩ := sound _ _ _ hfree first hfirst
    obtain h | ⟨_, _, h⟩ := bind_eq_error_iff.mp h
    · have hstopped := chainTail_halting sound halting first.value first.rest _ depth
        (Nat.add_zero _).symm hfree h
      rw [← hphrase.tree_eq] at hstopped
      rw [hphrase.tokens_eq]
      exact hstopped.behind phrase.tokens fun _ _ hpart => .chain above phrase hpart
    · cases h

/-- **Arguments.**  Some of them are read, and the next one is not. -/
theorem arguments_halting {argument : Rule Expr bound} (sound : SoundRule .disjunction argument)
    (halting : HaltingRule .disjunction argument) (tokens : List Token)
    (within : tokens.length < bound) (hfree : depth ≤ depthLimit)
    (h : arguments argument tokens within depth = .error failure) :
    Stopped UnfinishedArguments tokens depth failure := by
  fun_induction arguments argument tokens within depth with
  | case1 tokens within ih =>
      obtain h | ⟨first, hfirst, h⟩ := bind_eq_error_iff.mp h
      · exact (halting _ _ _ hfree failure h).behind [] fun _ _ hpart => .last hpart
      · obtain ⟨phrase, hphrase⟩ := sound _ _ _ hfree first hfirst
        split at h
        · cases h
        · rename_i token rest hrest
          by_cases hcomma : token.isOperator .comma
          · rw [if_pos hcomma] at h
            obtain h | ⟨_, _, h⟩ := bind_eq_error_iff.mp h
            · have hstopped := ih first token rest hrest h
              have hsplit : tokens = (phrase.tokens ++ [token]) ++ rest := by
                rw [hphrase.tokens_eq, hrest, List.append_assoc]
                rfl
              rw [hsplit]
              refine hstopped.behind _ fun read _ hpart => ?_
              rw [List.append_assoc]
              exact .cons phrase (.ofIs hcomma) hpart
            · cases h
          · rw [if_neg hcomma] at h
            cases h

/-- A comparison fails on its right side. -/
theorem compareWith_halting {left : Parsed Token Expr bound} {right : Rule Expr bound}
    {phrase : Phrase .sum} (hleft : phrase.Accounts tokens depth left.value left.rest)
    (halting : HaltingRule .sum right) (hfree : depth ≤ depthLimit) :
    Halting .comparison tokens depth (compareWith left right depth) := by
  intro failure h
  unfold compareWith at h
  split at h
  · cases h
  · rename_i token rest hrest
    split at h
    · cases h
    · rename_i op hop
      obtain h | ⟨_, _, h⟩ := bind_eq_error_iff.mp h
      · have hsplit : tokens = (phrase.tokens ++ [token]) ++ rest := by
          rw [hleft.tokens_eq, hrest, List.append_assoc]
          rfl
        rw [hsplit]
        refine (halting _ _ _ hfree failure h).behind _ fun read _ hpart => ?_
        rw [List.append_assoc]
        exact .compared phrase (.ofAmong hop) hpart
      · cases h

/-- A sign or a `not` is refused, or fails in its operand. -/
theorem prefixed_halting {token : Token} {rest : List Token}
    {inner : Nat → Except Failure (Parsed Token Expr rest.length)}
    {next : Parsed Token Expr rest.length → Parsed Token Expr (rest.length + 1)}
    (halting : ∀ d, d ≤ depthLimit → Halting level rest d (inner d))
    (make : ∀ read held, Unfinished level read held → Unfinished level (token :: read) held)
    (hfree : depth ≤ depthLimit) :
    Halting level (token :: rest) depth (do
      let operand ← deeper token.span rest depth inner
      pure (next operand)) := by
  intro failure h
  obtain h | ⟨_, _, h⟩ := bind_eq_error_iff.mp h
  · obtain rfl | ⟨hdeeper, failed, hfailed, rfl⟩ := deeper_eq_error h
    · exact .at (some token) .stopped hfree
    · exact (halting _ hdeeper failed hfailed).giveBack.behind [token] make
  · cases h

/-- A group is refused, fails inside, or is not closed. -/
theorem group_halting {opening : Token} {rest : List Token}
    (hopen : opening.isOperator .openParenthesis)
    {inner : Nat → Except Failure (Parsed Token Expr rest.length)}
    (sound : ∀ d, d ≤ depthLimit → Sound .disjunction rest d (inner d))
    (halting : ∀ d, d ≤ depthLimit → Halting .disjunction rest d (inner d))
    (hfree : depth ≤ depthLimit) :
    Halting .primary (opening :: rest) depth (do
      let inner ← deeper opening.span rest depth inner
      let group ← closeGroup opening.span inner depth
      pure (group.widen (Nat.le_succ rest.length))) := by
  intro failure h
  let sign : OperatorToken [.openParenthesis] := .ofIs hopen
  obtain h | ⟨inner, hinner, h⟩ := bind_eq_error_iff.mp h
  · obtain rfl | ⟨hdeeper, failed, hfailed, rfl⟩ := deeper_eq_error h
    · exact .at (some opening) .stopped hfree
    · exact (halting _ hdeeper failed hfailed).giveBack.behind [opening]
        fun _ _ hpart => .group sign hpart
  · obtain ⟨hdeeper, hinner⟩ := deeper_eq_ok hinner
    obtain ⟨phrase, hphrase⟩ := sound _ hdeeper inner hinner
    obtain h | ⟨_, _, h⟩ := bind_eq_error_iff.mp h
    · have hsplit : opening :: rest = (opening :: phrase.tokens) ++ inner.rest :=
        congrArg (opening :: ·) hphrase.tokens_eq
      have hrest : failure.rest = inner.rest ∧ failure.depth = depth := by
        unfold closeGroup at h
        split at h
        · rename_i hend
          cases h
          exact ⟨hend.symm, rfl⟩
        · rename_i token after hafter
          split at h
          · cases h
          · cases h
            exact ⟨hafter.symm, rfl⟩
      refine ⟨none, .unclosedGroup sign phrase, ?_, hrest.2, by omega⟩
      rw [hrest.1]
      exact hsplit
    · cases h

/-- A call is refused, fails in its arguments, or is not closed. -/
theorem call_halting {ending : Nat} {name opening : Token} {after : List Token}
    (identifier : name.kind = .identifier) (hopen : opening.isOperator .openParenthesis)
    {argument : Rule Expr (after.length + 1)} (sound : SoundRule .disjunction argument)
    (halting : HaltingRule .disjunction argument) (hfree : depth ≤ depthLimit) :
    Halting .primary (name :: opening :: after) depth (do
      let list ← deeper opening.span after depth fun d =>
        arguments argument after (Nat.lt_succ_self _) d
      let whole ← closeCall ending name list depth
      pure (whole.widen (Nat.le_add_right after.length 2))) := by
  intro failure h
  let sign : OperatorToken [.openParenthesis] := .ofIs hopen
  obtain h | ⟨list, hlist, h⟩ := bind_eq_error_iff.mp h
  · obtain rfl | ⟨hdeeper, failed, hfailed, rfl⟩ := deeper_eq_error h
    · exact ⟨some opening, .called name identifier, rfl, rfl, hfree⟩
    · exact (arguments_halting sound halting after _ hdeeper hfailed).giveBack.behind
        [name, opening] fun _ _ hpart => .call name identifier sign hpart
  · obtain ⟨hdeeper, hlist⟩ := deeper_eq_ok hlist
    obtain ⟨phrases, htokens, -, -⟩ := arguments_sound sound after _ hdeeper hlist
    obtain h | ⟨_, _, h⟩ := bind_eq_error_iff.mp h
    · obtain ⟨refused, hrest, hdepth⟩ : ∃ refused : Option Token,
          list.rest = refused.toList ++ failure.rest ∧ failure.depth = depth := by
        unfold closeCall at h
        split at h
        · rename_i hend
          cases h
          exact ⟨none, hend, rfl⟩
        · rename_i token rest hafter
          split at h
          · cases h
          · cases h
            exact ⟨some token, hafter, rfl⟩
      refine ⟨refused, .unclosedCall name identifier sign phrases, ?_, hdepth, by omega⟩
      rw [← hrest]
      exact congrArg (name :: opening :: ·) htokens
    · cases h

theorem Halting.loosen {result : Except Failure (Parsed Token Expr bound)}
    (above : level ≠ .primary) (h : Halting level.tighter tokens depth result) :
    Halting level tokens depth result := by
  intro failure hfailed
  exact (h failure hfailed).behind [] fun _ _ hpart => .first above hpart

/-- **What a failure keeps.** -/
theorem Level.read_halting (ending : Nat) (level : Level) (tokens : List Token) (depth : Nat)
    (hfree : depth ≤ depthLimit) : Halting level tokens depth (level.read ending tokens depth) := by
  have sound := fun level tokens depth => Level.read_sound ending level tokens depth
  induction level, tokens, depth using Level.rule_induction with
  | chained level tokens depth hjoiners ih =>
      rw [read_chain ending hjoiners]
      exact chain_halting level (fun ts _ d => sound level.tighter ts d) ih
        (ne_primary_of_joiners hjoiners) hfree
  | unprefixed level tokens depth hprefixes hnone ih =>
      rw [read_unprefixed ending hprefixes hnone]
      exact Halting.loosen (ne_primary_of_prefixes hprefixes) (ih hfree)
  | negated token rest depth hnot ih =>
      rw [read_negated ending hnot]
      exact prefixed_halting ih (fun _ _ hpart => .negated (.ofIs hnot) hpart) hfree
  | signed token op rest depth hop ih =>
      rw [read_signed ending hop]
      exact prefixed_halting ih (fun _ _ hpart => .signed (.ofAmong hop) hpart) hfree
  | comparison tokens depth ihleft ihright =>
      rw [read_comparison]
      intro failure h
      obtain h | ⟨left, hleft, h⟩ := bind_eq_error_iff.mp h
      · exact (ihleft hfree failure h).behind [] fun _ _ hpart => .first (by decide) hpart
      · obtain ⟨phrase, hphrase⟩ := sound .sum tokens depth hfree left hleft
        exact compareWith_halting hphrase ihright hfree failure h
  | missing depth =>
      rw [read_nil]
      rintro failure ⟨⟩
      exact .at none .stopped hfree
  | literal token value rest depth hkind =>
      rw [read_literal ending hkind]
      rintro failure ⟨⟩
  | group token rest depth hkind ih =>
      rw [read_group ending hkind]
      exact group_halting (by simp [Token.isOperator, Token.operator?, hkind])
        (sound .disjunction rest) ih hfree
  | misplaced token op rest depth hkind hop =>
      rw [read_operator ending hkind hop]
      rintro failure ⟨⟩
      exact .at (some token) .stopped hfree
  | name token rest depth hkind hrest =>
      rw [read_name ending hkind hrest]
      rintro failure ⟨⟩
  | emptyCall token opening closing rest depth hkind hbare hopen hclosing =>
      rw [read_emptyCall ending hkind hbare hopen hclosing]
      rintro failure ⟨⟩
  | call token opening rest depth hkind hbare hopen hrest ih =>
      rw [read_call ending hkind hbare hopen hrest]
      exact call_halting hkind hopen (fun ts _ d => sound .disjunction ts d) ih hfree

end Grammar

open Grammar

namespace Parser

/-- What a call makes of the depth of a parser. -/
inductive Keeps (p : Parser) : Except ParseError Expr × Parser → Prop
  /-- An expression was read: every level is given back. -/
  | read {tree : Expr} {after : Parser} (same : after.depth = p.depth) :
      Keeps p (.ok tree, after)
  /-- An expression was read, but it is not the last thing there. -/
  | trailing {token : Token} {rest : List Token} {after : Parser}
      (next : after.rest = token :: rest) (same : after.depth = p.depth) :
      Keeps p (.error ⟨.trailing token.text, token.span⟩, after)
  /-- Reading broke off: the open chains keep what they hold. -/
  | broken {error : ParseError} {after : Parser} {read : List Token} {held : Nat}
      (refused : Option Token) (unfinished : Unfinished .disjunction read held)
      (split : p.rest = read ++ (refused.toList ++ after.rest))
      (kept : after.depth = p.depth + held) (bounded : after.depth ≤ depthLimit) :
      Keeps p (.error error, after)

/-- A call of a parser. -/
inductive Call where
  | expression
  | formula
deriving DecidableEq, Repr

/-- The result of a call, and the parser behind it. -/
def call (p : Parser) : Call → Except ParseError Expr × Parser
  | .expression => p.expression
  | .formula => p.formula

/-- The parser behind some calls, whatever their results. -/
def after (p : Parser) (calls : List Call) : Parser :=
  calls.foldl (fun p c => (p.call c).2) p

variable {p : Parser}

theorem keeps_expression (hfree : p.depth ≤ depthLimit) : p.Keeps p.expression := by
  unfold expression
  cases h : Level.disjunction.read p.ending p.rest p.depth with
  | ok parsed => exact .read rfl
  | error failure =>
      obtain ⟨refused, hpart, hsplit, hdepth, hbounded⟩ :=
        Level.read_halting p.ending .disjunction p.rest p.depth hfree failure h
      exact .broken refused hpart hsplit hdepth hbounded

theorem keeps_formula (hfree : p.depth ≤ depthLimit) : p.Keeps p.formula := by
  have hkeeps := keeps_expression hfree
  unfold formula
  split
  · rename_i tree after hread
    rw [hread] at hkeeps
    obtain hsame | _ | _ := hkeeps
    split
    · exact .read hsame
    · rename_i token rest hnext
      exact .trailing hnext hsame
  · rename_i error after hread
    rwa [hread] at hkeeps

/-- One call. -/
theorem keeps_call (hfree : p.depth ≤ depthLimit) (c : Call) : p.Keeps (p.call c) := by
  cases c with
  | expression => exact keeps_expression hfree
  | formula => exact keeps_formula hfree

theorem Keeps.depth_between {result : Except ParseError Expr × Parser}
    (h : p.Keeps result) (hfree : p.depth ≤ depthLimit) :
    p.depth ≤ result.2.depth ∧ result.2.depth ≤ depthLimit := by
  cases h with
  | read same | trailing next same =>
      simp only
      omega
  | broken refused unfinished split kept bounded =>
      simp only
      omega

/-- **Any calls.**  No call brings back a level that a call before it has kept, and the limit
is never passed. -/
theorem depth_after_between (hfree : p.depth ≤ depthLimit) (calls : List Call) :
    p.depth ≤ (p.after calls).depth ∧ (p.after calls).depth ≤ depthLimit := by
  induction calls generalizing p with
  | nil => exact ⟨Nat.le_refl _, hfree⟩
  | cons c calls ih =>
      obtain ⟨hkept, hbounded⟩ := (keeps_call hfree c).depth_between hfree
      obtain ⟨hlater, hlimit⟩ := ih hbounded
      exact ⟨Nat.le_trans hkept hlater, hlimit⟩

/-- **What calls keep.**  Behind any calls on a fresh parser of any tokens, a call that reads an
expression leaves the depth as it is; a call that breaks off adds the switches of operator of
the chains that stand open, and nothing else. -/
theorem keeps_after (source : String) (tokens : List Token) (calls : List Call) (c : Call) :
    let p := (ofSource source tokens).after calls
    p.Keeps (p.call c) := by
  have hfresh : (ofSource source tokens).depth ≤ depthLimit := Nat.zero_le _
  obtain ⟨-, hbounded⟩ := depth_after_between hfresh calls
  exact keeps_call hbounded c

/-- A chain with a switch at each operator, broken off behind the last one; then a group. -/
def brokenChain : String :=
  "1" ++ String.join (List.replicate 31 "-1+1") ++ "-1+)(1)"

/-- The broken chain keeps every level there is, so that the group behind it is refused, which
a parser at its old depth reads. -/
theorem depth_behind_brokenChain :
    let p := ofSource brokenChain (tokenize brokenChain).tokens
    error? p.expression.1 = some ⟨.unexpectedOperator ")", ⟨128, 129⟩⟩ ∧
      p.depth = 0 ∧ p.expression.2.depth = depthLimit ∧
      error? p.expression.2.expression.1 = some ⟨.tooDeep, ⟨129, 130⟩⟩ ∧
      error? (Parser.expression { p.expression.2 with depth := p.depth }).1 = none := by
  decide +kernel

end Parser

end QueryFormula
