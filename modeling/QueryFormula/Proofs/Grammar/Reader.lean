import QueryFormula.Proofs.Grammar.Completeness

/-!
# The levels of the grammar as readers

A rule of the grammar carries the proof that it leaves a shorter list, and a
failure says where reading stopped.  To compare what one rule does on different
lists neither matters.  A `Reader` is what remains: a value and the tokens behind
it, or an error.

`Level.reader` is `Level.read` seen this way.  The equations below say for every
level which few readings it is put together from; `Reader.andThen`, `followed`,
`closed` and `deeper` are all that is needed.
-/

namespace QueryFormula.Grammar

/-- A value and the tokens behind it, or an error. -/
abbrev Reader (α : Type) := List Token → Except ParseError (α × List Token)

variable {α β : Type} {bound bound' : Nat}

/-- The result of a rule, without the bound on what it leaves and without the place
where a failure stopped reading. -/
def outcome : Except Failure (Parsed Token α bound) → Except ParseError (α × List Token)
  | .ok parsed => .ok (parsed.value, parsed.rest)
  | .error failure => .error failure.error

namespace Reader

/-- A value for which nothing is read. -/
def done (value : α) : Reader α :=
  fun tokens => .ok (value, tokens)

/-- Nothing but an error. -/
def refuse (error : ParseError) : Reader α :=
  fun _ => .error error

/-- One reading, and another behind it. -/
def andThen (first : Reader α) (next : α → Reader β) : Reader β := fun tokens =>
  match first tokens with
  | .ok (value, rest) => next value rest
  | .error error => .error error

/-- A value, unless one of these operators comes next: then what is read behind it. -/
def followed (ops : List Operator) (value : α) (next : Operator → Token → Reader α) : Reader α
  | [] => .ok (value, [])
  | token :: rest =>
    match operatorAmong? ops token with
    | none => .ok (value, token :: rest)
    | some op => next op token rest

/-- A closing parenthesis; the errors are for the end and for any other token. -/
def closed (missing : ParseError) (wrong : Token → ParseError) (value : Token → α) : Reader α
  | [] => .error missing
  | token :: rest =>
    if token.isOperator .closeParenthesis then .ok (value token, rest) else .error (wrong token)

/-- A reading one level deeper. -/
def deeper (span : Span) (depth : Nat) (inner : Nat → Reader α) : Reader α :=
  if depthLimit ≤ depth then refuse ⟨.tooDeep, span⟩ else inner (depth + 1)

variable {first : Reader α} {next : α → Reader β} {tokens rest : List Token}

theorem andThen_of_ok {value : α} (h : first tokens = .ok (value, rest)) :
    first.andThen next tokens = next value rest := by
  rw [andThen, h]

theorem andThen_of_error {error : ParseError} (h : first tokens = .error error) :
    first.andThen next tokens = .error error := by
  rw [andThen, h]

/-- The reader leaves fewer tokens than it is given. -/
def Shortens (reader : Reader α) : Prop :=
  ∀ tokens value rest, reader tokens = .ok (value, rest) → rest.length < tokens.length

theorem Shortens.deeper {inner : Nat → Reader α} (h : ∀ depth, (inner depth).Shortens)
    (span : Span) (depth : Nat) : (Reader.deeper span depth inner).Shortens := by
  unfold Reader.deeper
  split
  · intro tokens value rest hread
    cases hread
  · exact h (depth + 1)

theorem Shortens.closed {missing : α → ParseError} {wrong : α → Token → ParseError}
    {value : α → Token → β} (h : first.Shortens) :
    (first.andThen fun a => .closed (missing a) (wrong a) (value a)).Shortens := by
  intro tokens result rest hread
  cases hfirst : first tokens with
  | error error => cases (andThen_of_error hfirst).symm.trans hread
  | ok found =>
      rcases found with ⟨a, middle⟩
      have hless := h _ _ _ hfirst
      rw [andThen_of_ok hfirst] at hread
      cases middle with
      | nil => cases hread
      | cons token middle =>
          rw [Reader.closed] at hread
          split at hread
          · cases hread
            simp only [List.length_cons] at hless
            omega
          · cases hread

end Reader

theorem outcome_eq_ok {result : Except Failure (Parsed Token α bound)} {value : α}
    {rest : List Token} (h : outcome result = .ok (value, rest)) :
    ∃ parsed, result = .ok parsed ∧ parsed.value = value ∧ parsed.rest = rest := by
  cases result with
  | error failure => cases h
  | ok parsed =>
      cases h
      exact ⟨parsed, rfl, rfl, rfl⟩

/-- A rule that bounds what it leaves by what it is given is a reader that shortens. -/
theorem shortens_outcome
    (rule : (tokens : List Token) → Except Failure (Parsed Token α tokens.length)) :
    Reader.Shortens fun tokens => outcome (rule tokens) := by
  intro tokens value rest h
  obtain ⟨parsed, _, _, rfl⟩ := outcome_eq_ok h
  exact parsed.shorter

theorem outcome_bind {first : Except Failure (Parsed Token α bound)}
    {next : Parsed Token α bound → Except Failure (Parsed Token β bound')}
    {reader : Reader α} {behind : α → Reader β} {tokens : List Token}
    (hfirst : outcome first = reader tokens)
    (hnext : ∀ parsed, outcome (next parsed) = behind parsed.value parsed.rest) :
    outcome (first >>= next) = reader.andThen behind tokens := by
  rw [Reader.andThen, ← hfirst]
  cases first with
  | error failure => rfl
  | ok parsed => exact hnext parsed

theorem outcome_map {f : α → β} (result : Except Failure (Parsed Token α bound))
    (hle : bound ≤ bound') {reader : Reader α} {tokens : List Token}
    (h : outcome result = reader tokens) :
    outcome (result >>= fun parsed => pure ((parsed.map f).widen hle)) =
      reader.andThen (fun value => .done (f value)) tokens :=
  outcome_bind h fun _ => rfl

theorem outcome_widen (result : Except Failure (Parsed Token α bound)) (hle : bound ≤ bound') :
    outcome (result >>= fun parsed => pure (parsed.widen hle)) = outcome result := by
  cases result <;> rfl

theorem outcome_deeper {span : Span} {tokens rest : List Token} {depth : Nat}
    {inner : Nat → Except Failure (Parsed Token α bound)} {reader : Nat → Reader α}
    (h : ∀ d, outcome (inner d) = reader d tokens) :
    outcome (deeper span rest depth inner) = Reader.deeper span depth reader tokens := by
  unfold deeper Reader.deeper
  split
  · rfl
  · rw [← h]
    cases inner (depth + 1) <;> rfl

/-! ### Chains and arguments -/

/-- A loop over a rule that is there for lists of any length does not depend on the
bound that it is given. -/
theorem chainTail_bound {ops : List Operator}
    (operand : (ts : List Token) → Nat → Except Failure (Parsed Token Expr ts.length))
    (left : Expr) (tokens : List Token) (within : tokens.length < bound)
    (within' : tokens.length < bound') (depth : Nat) :
    chainTail ops (fun ts _ d => operand ts d) left tokens within depth =
      chainTail ops (fun ts _ d => operand ts d) left tokens within' depth := by
  fun_induction chainTail ops (fun ts _ d => operand ts d) left tokens within depth with
  | case1 left depth => rw [chainTail]
  | case2 left depth token rest within hop => rw [chainTail, hop]
  | case3 left depth token rest within op hop hfull =>
      rw [chainTail, hop]
      simp only [if_pos hfull]
  | case4 left depth token rest within op hop hroom deeper hless ih =>
      rw [chainTail, hop]
      simp only [if_neg hroom]
      congr 1
      funext right
      exact congrArg (· >>= _) (ih right _)

theorem arguments_bound
    (argument : (ts : List Token) → Nat → Except Failure (Parsed Token Expr ts.length))
    (tokens : List Token) (within : tokens.length < bound)
    (within' : tokens.length < bound') (depth : Nat) :
    arguments (fun ts _ d => argument ts d) tokens within depth =
      arguments (fun ts _ d => argument ts d) tokens within' depth := by
  fun_induction arguments (fun ts _ d => argument ts d) tokens within depth with
  | case1 tokens within ih =>
      rw [arguments]
      congr 1
      funext first
      split
      · rfl
      · rename_i token rest hrest
        split
        · exact congrArg (· >>= _) (ih first token rest hrest _)
        · rfl

/-- A loop over a list is bounded by what is longer than the list. -/
theorem length_lt_succ (tokens : List Token) : tokens.length < tokens.length + 1 :=
  Nat.lt_succ_self tokens.length

variable (ending : Nat)

/-- A level of the grammar as a reader. -/
def Level.reader (level : Level) (depth : Nat) : Reader Expr := fun tokens =>
  outcome (level.read ending tokens depth)

/-- The operators and operands behind the first operand of a chain. -/
def tailReader (level : Level) (depth : Nat) (left : Expr) : Reader Expr := fun tokens =>
  outcome (chainTail level.joiners (fun ts _ d => level.tighter.read ending ts d) left tokens
    (length_lt_succ tokens) depth)

/-- The arguments of a call. -/
def argumentsReader (depth : Nat) : Reader (List Expr) := fun tokens =>
  outcome (arguments (fun ts _ d => Level.disjunction.read ending ts d) tokens
    (length_lt_succ tokens) depth)

theorem Level.reader_shortens (level : Level) (depth : Nat) :
    (level.reader ending depth).Shortens :=
  shortens_outcome fun tokens => level.read ending tokens depth

theorem argumentsReader_shortens (depth : Nat) : (argumentsReader ending depth).Shortens :=
  shortens_outcome fun tokens => arguments (fun ts _ d => Level.disjunction.read ending ts d)
    tokens (length_lt_succ tokens) depth

theorem tailReader_eq (level : Level) (depth : Nat) (left : Expr) :
    tailReader ending level depth left =
      .followed level.joiners left fun op token =>
        if !isChainOf left op && depthLimit ≤ depth then .refuse ⟨.tooDeep, token.span⟩
        else
          let depth := if isChainOf left op then depth else depth + 1
          (level.tighter.reader ending depth).andThen fun right =>
            tailReader ending level depth (appendOperand left op right) := by
  funext tokens
  cases tokens with
  | nil =>
      rw [tailReader, chainTail]
      rfl
  | cons token rest =>
      rw [tailReader, chainTail, Reader.followed]
      cases operatorAmong? level.joiners token with
      | none => rfl
      | some op =>
          dsimp only
          split
          · rfl
          · refine outcome_bind rfl fun right => ?_
            rw [outcome_widen, chainTail_bound _ _ _ _ (Nat.lt_succ_self _)]
            rfl

theorem reader_chain {level : Level} (h : level.joiners ≠ []) (depth : Nat) :
    level.reader ending depth =
      (level.tighter.reader ending depth).andThen (tailReader ending level depth) := by
  funext tokens
  rw [Level.reader, Level.read_chain ending h, chain]
  refine outcome_bind rfl fun first => ?_
  rw [outcome_widen, chainTail_bound _ _ _ _ (Nat.lt_succ_self _)]
  rfl

theorem argumentsReader_eq (depth : Nat) :
    argumentsReader ending depth =
      (Level.disjunction.reader ending depth).andThen fun first =>
        .followed [.comma] [first] fun _ _ =>
          (argumentsReader ending depth).andThen fun others => .done (first :: others) := by
  funext tokens
  rw [argumentsReader, arguments]
  refine outcome_bind rfl fun parsed => ?_
  obtain ⟨first, rest, shorter⟩ := parsed
  cases rest with
  | nil => rfl
  | cons token rest =>
      rw [Reader.followed, operatorAmong?_singleton]
      dsimp only
      split
      · refine outcome_map _ _ ?_
        rw [arguments_bound _ _ _ (Nat.lt_succ_self _)]
        rfl
      · rfl

/-! ### The other levels -/

/-- What a sum is compared with, if anything. -/
def comparedReader (depth : Nat) (left : Expr) : Reader Expr :=
  .followed Operator.comparisons left fun op _ =>
    (Level.sum.reader ending depth).andThen fun right => .done (binary left op right)

theorem reader_comparison (depth : Nat) :
    Level.comparison.reader ending depth =
      (Level.sum.reader ending depth).andThen (comparedReader ending depth) := by
  funext tokens
  rw [Level.reader, Level.read_comparison]
  refine outcome_bind rfl fun parsed => ?_
  obtain ⟨left, rest, shorter⟩ := parsed
  cases rest with
  | nil => rfl
  | cons token rest =>
      rw [comparedReader, Reader.followed, compareWith]
      dsimp only
      cases operatorAmong? Operator.comparisons token with
      | none => rfl
      | some op => exact outcome_map _ _ rfl

section

variable {token opening closing : Token} {rest : List Token}

theorem reader_unprefixed {level : Level} (hprefixes : level.prefixes ≠ []) {tokens : List Token}
    (h : ∀ first ∈ tokens.head?, operatorAmong? level.prefixes first = none) (depth : Nat) :
    level.reader ending depth tokens = level.tighter.reader ending depth tokens := by
  rw [Level.reader, Level.read_unprefixed ending hprefixes h, Level.reader]

theorem reader_not (h : token.isOperator .not) (rest : List Token) (depth : Nat) :
    Level.negation.reader ending depth (token :: rest) =
      (Reader.deeper token.span depth (Level.negation.reader ending)).andThen
        (fun operand => .done (unary .not token.span operand)) rest := by
  rw [Level.reader, Level.read_negated ending h]
  exact outcome_map _ _ (outcome_deeper fun _ => rfl)

theorem reader_sign {op : Operator} (h : operatorAmong? [.plus, .minus] token = some op)
    (rest : List Token) (depth : Nat) :
    Level.signed.reader ending depth (token :: rest) =
      (Reader.deeper token.span depth (Level.signed.reader ending)).andThen
        (fun operand => .done (unary op token.span operand)) rest := by
  rw [Level.reader, Level.read_signed ending h]
  exact outcome_map _ _ (outcome_deeper fun _ => rfl)

theorem reader_nil (depth : Nat) :
    Level.primary.reader ending depth [] = .error ⟨.unexpectedEnd, endSpan ending⟩ := by
  rw [Level.reader, Level.read_nil]
  rfl

theorem reader_literal {value : Literal} (h : token.kind = .literal value) (rest : List Token)
    (depth : Nat) :
    Level.primary.reader ending depth (token :: rest) =
      .ok (.literal value (some token.span), rest) := by
  rw [Level.reader, Level.read_literal ending h]
  rfl

theorem reader_operator {op : Operator} (h : token.kind = .operator op)
    (hop : op ≠ .openParenthesis) (rest : List Token) (depth : Nat) :
    Level.primary.reader ending depth (token :: rest) =
      .error ⟨.unexpectedOperator token.text, token.span⟩ := by
  rw [Level.reader, Level.read_operator ending h hop]
  rfl

theorem reader_group (h : token.kind = .operator .openParenthesis) (rest : List Token)
    (depth : Nat) :
    Level.primary.reader ending depth (token :: rest) =
      (Reader.deeper token.span depth (Level.disjunction.reader ending)).andThen
        (fun inner => .closed ⟨.unclosedGroup, token.span⟩ (fun t => ⟨.unclosedGroup, t.span⟩)
          fun _ => inner) rest := by
  rw [Level.reader, Level.read_group ending h]
  refine outcome_bind (outcome_deeper fun _ => rfl) fun ⟨inner, left, shorter⟩ => ?_
  rw [outcome_widen]
  cases left with
  | nil => rfl
  | cons next left =>
      rw [closeGroup, Reader.closed]
      dsimp only
      split <;> rfl

theorem reader_name (h : token.kind = .identifier)
    (hrest : token.isBracketed = false →
      ∀ next ∈ rest.head?, next.isOperator .openParenthesis = false) (depth : Nat) :
    Level.primary.reader ending depth (token :: rest) = .ok (name token, rest) := by
  rw [Level.reader, Level.read_name ending h hrest]
  rfl

theorem reader_emptyCall (h : token.kind = .identifier) (hb : token.isBracketed = false)
    (ho : opening.isOperator .openParenthesis) (hc : closing.isOperator .closeParenthesis)
    (rest : List Token) (depth : Nat) :
    Level.primary.reader ending depth (token :: opening :: closing :: rest) =
      .ok (call token [] closing.span, rest) := by
  rw [Level.reader, Level.read_emptyCall ending h hb ho hc]
  rfl

theorem reader_call (h : token.kind = .identifier) (hb : token.isBracketed = false)
    (ho : opening.isOperator .openParenthesis)
    (hrest : ∀ next ∈ rest.head?, next.isOperator .closeParenthesis = false) (depth : Nat) :
    Level.primary.reader ending depth (token :: opening :: rest) =
      (Reader.deeper opening.span depth (argumentsReader ending)).andThen
        (fun list => .closed ⟨.unclosedCall none, endSpan ending⟩
          (fun t => ⟨.unclosedCall (some t.text), t.span⟩)
          fun t => call token list t.span) rest := by
  rw [Level.reader, Level.read_call ending h hb ho hrest]
  refine outcome_bind (outcome_deeper fun _ => rfl) fun ⟨list, left, shorter⟩ => ?_
  rw [outcome_widen]
  cases left with
  | nil => rfl
  | cons next left =>
      rw [closeCall, Reader.closed]
      dsimp only
      split <;> rfl

end

end QueryFormula.Grammar
