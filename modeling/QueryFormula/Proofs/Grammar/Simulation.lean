import QueryFormula.Proofs.Grammar.Machine
import QueryFormula.Proofs.Grammar.Rules

/-!
# Reading in steps is reading

`Level.read` calls itself for the parts of an expression; a run of configurations keeps a stack
of what is still to be done with them.  Both come to the same tree or the same error, leave the
same tokens and stand at the same depth (`Level.read_settles`).

There is one lemma for each rule of the grammar.  Only at the levels of nesting do the two
differ in form: `deeper` takes one from the depth of a failure, and would stop at zero, where a
step would underflow.  The bounds of the run show that there is always a level to give back
(`Leads.giveBack`).
-/

namespace QueryFormula.Grammar

variable {ending : Nat} {tokens : List Token}

/-- Some steps lead from one configuration to another. -/
def Leads (ending : Nat) (tokens : List Token) (c c' : Config) : Prop :=
  ∃ n, (Config.next ending tokens)^[n] c = c'

/-- Some steps lead to what a rule yields, with nothing left of the stack but `stack`; where an
expression is found, the depth is `depth`. -/
inductive Settles (ending : Nat) (tokens : List Token) (c : Config) (stack : List Frame)
    (depth : Nat) {bound : Nat} : Except Failure (Parsed Token Expr bound) → Prop
  | found {parsed : Parsed Token Expr bound} {position : Nat}
      (rest : tokens.drop position = parsed.rest)
      (leads : Leads ending tokens c ⟨.found parsed.value, position, depth, stack⟩) :
      Settles ending tokens c stack depth (.ok parsed)
  | failed {failure : Failure} {position : Nat} (rest : tokens.drop position = failure.rest)
      (leads : Leads ending tokens c ⟨.failed failure.error, position, failure.depth, stack⟩) :
      Settles ending tokens c stack depth (.error failure)

/-- The same for arguments: the last one is found behind the others. -/
inductive SettlesList (ending : Nat) (tokens : List Token) (c : Config) (name : Token)
    (before : List Expr) (stack : List Frame) (depth : Nat) {bound : Nat} :
    Except Failure (Parsed Token (List Expr) bound) → Prop
  | found {list : Parsed Token (List Expr) bound} {position : Nat} {front : List Expr}
      {last : Expr} (rest : tokens.drop position = list.rest)
      (values : front ++ [last] = before ++ list.value)
      (ended : operatorAt? tokens [.comma] position = none)
      (leads : Leads ending tokens c
        ⟨.found last, position, depth, .nested (.arguments name front) :: stack⟩) :
      SettlesList ending tokens c name before stack depth (.ok list)
  | failed {failure : Failure} {position : Nat} {front : List Expr}
      (rest : tokens.drop position = failure.rest)
      (leads : Leads ending tokens c ⟨.failed failure.error, position, failure.depth,
        .nested (.arguments name front) :: stack⟩) :
      SettlesList ending tokens c name before stack depth (.error failure)

/-- A rule settles wherever reading stands within bounds. -/
def SettlingRule (ending : Nat) (tokens : List Token) (level : Level) {bound : Nat}
    (rule : Rule Expr bound) : Prop :=
  ∀ ts within depth position stack, tokens.drop position = ts →
    Config.InBounds tokens ⟨.read level, position, depth, stack⟩ →
    Settles ending tokens ⟨.read level, position, depth, stack⟩ stack depth (rule ts within depth)

variable {c c' c'' : Config} {level : Level} {bound bound' position depth base : Nat}
  {stack : List Frame} {frame : Frame} {nesting : Nesting} {token : Token}
  {rest : List Token} {ops : List Operator}

theorem Leads.refl : Leads ending tokens c c :=
  ⟨0, rfl⟩

theorem Leads.trans (h : Leads ending tokens c c') (h' : Leads ending tokens c' c'') :
    Leads ending tokens c c'' := by
  obtain ⟨m, rfl⟩ := h
  obtain ⟨n, rfl⟩ := h'
  exact ⟨n + m, Function.iterate_add_apply _ n m c⟩

theorem Leads.step (h : c.next ending tokens = c') : Leads ending tokens c c' :=
  ⟨1, h⟩

theorem Leads.inBounds (h : Leads ending tokens c c') (hc : c.InBounds tokens) :
    c'.InBounds tokens := by
  obtain ⟨n, rfl⟩ := h
  exact inBounds_run hc n

/-- A run that leads to a result stands there after as many steps as its start weighs. -/
theorem Leads.run_eq {n : Nat} (hc : c.InBounds tokens) (hhalted : c'.Halted)
    (h : Leads ending tokens c c') (hn : c.weight tokens ≤ n) :
    (Config.next ending tokens)^[n] c = c' := by
  obtain ⟨m, rfl⟩ := h
  have hend : ((Config.next ending tokens)^[n] c).Halted := halted_run hc hn
  calc (Config.next ending tokens)^[n] c
      = (Config.next ending tokens)^[m] ((Config.next ending tokens)^[n] c) :=
        (hend.run_eq m).symm
    _ = (Config.next ending tokens)^[n] ((Config.next ending tokens)^[m] c) := by
        rw [← Function.iterate_add_apply, Nat.add_comm, Function.iterate_add_apply]
    _ = (Config.next ending tokens)^[m] c := hhalted.run_eq n

theorem Settles.behind {result : Except Failure (Parsed Token Expr bound)}
    (hleads : Leads ending tokens c c') (h : Settles ending tokens c' stack depth result) :
    Settles ending tokens c stack depth result := by
  cases h with
  | found hrest h => exact .found hrest (hleads.trans h)
  | failed hrest h => exact .failed hrest (hleads.trans h)

theorem Settles.widen {result : Except Failure (Parsed Token Expr bound)}
    (hle : bound ≤ bound') (h : Settles ending tokens c stack depth result) :
    Settles ending tokens c stack depth (result >>= fun parsed => pure (parsed.widen hle)) := by
  cases h with
  | found hrest h => exact .found hrest h
  | failed hrest h => exact .failed hrest h

/-- One rule behind another: an error goes through a frame that holds no level. -/
theorem Settles.bind {first : Except Failure (Parsed Token Expr bound)}
    {next : Parsed Token Expr bound → Except Failure (Parsed Token Expr bound')}
    (h : Settles ending tokens c (frame :: stack) base first)
    (hframe : ∀ nesting, frame ≠ .nested nesting)
    (hnext : ∀ parsed position, tokens.drop position = parsed.rest →
      Leads ending tokens c ⟨.found parsed.value, position, base, frame :: stack⟩ →
      Settles ending tokens ⟨.found parsed.value, position, base, frame :: stack⟩ stack depth
        (next parsed)) :
    Settles ending tokens c stack depth (first >>= next) := by
  cases h with
  | found hrest h => exact (hnext _ _ hrest h).behind h
  | failed hrest h =>
      refine .failed hrest (h.trans (.step ?_))
      cases frame with
      | nested nesting => exact absurd rfl (hframe nesting)
      | operand | leftSide | rightSide | formula => rfl

theorem drop_succ_of_cons (h : tokens.drop position = token :: rest) :
    tokens.drop (position + 1) = rest := by
  rw [← List.tail_drop, h]
  rfl

theorem operatorAt?_of_nil (h : tokens.drop position = []) :
    operatorAt? tokens ops position = none := by
  rw [operatorAt?, List.getElem?_eq_none (List.drop_eq_nil_iff.mp h)]
  rfl

theorem operatorAt?_of_cons (h : tokens.drop position = token :: rest) :
    operatorAt? tokens ops position = (operatorAmong? ops token).map (·, token.span) := by
  have htoken : tokens[position]? = some token := by
    rw [← List.head?_drop, h]
    rfl
  rw [operatorAt?, htoken]
  rfl

theorem operatorAt?_of_isOperator {op : Operator} (h : tokens.drop position = token :: rest)
    (hop : token.isOperator op) : operatorAt? tokens [op] position = some (op, token.span) := by
  rw [operatorAt?_of_cons h, operatorAmong?_singleton, if_pos hop]
  rfl

theorem operatorAt?_of_not_isOperator {op : Operator} (h : tokens.drop position = token :: rest)
    (hop : ¬ token.isOperator op) : operatorAt? tokens [op] position = none := by
  rw [operatorAt?_of_cons h, operatorAmong?_singleton, if_neg hop]
  rfl

theorem operatorAt?_eq_none {ts : List Token} (h : tokens.drop position = ts)
    (hnone : ∀ first ∈ ts.head?, operatorAmong? ops first = none) :
    operatorAt? tokens ops position = none := by
  cases ts with
  | nil => exact operatorAt?_of_nil h
  | cons token rest =>
      rw [operatorAt?_of_cons h, hnone token rfl]
      rfl

/-! ### How a step begins a level -/

theorem readLevel_of_joiners (h : level.joiners ≠ []) :
    readLevel ending tokens level position depth stack =
      ⟨.read level.tighter, position, depth, .operand level depth none :: stack⟩ := by
  cases level <;> first | contradiction | rfl

theorem readLevel_of_prefixes (h : level.prefixes ≠ []) :
    readLevel ending tokens level position depth stack =
      readSigned tokens level.prefixes level position depth stack := by
  cases level <;> first | contradiction | rfl

theorem readPrimary_name (hrest : tokens.drop position = token :: rest)
    (hkind : token.kind = .identifier)
    (hbehind : token.isBracketed = false →
      ∀ next ∈ rest.head?, next.isOperator .openParenthesis = false) :
    readPrimary ending tokens position depth stack =
      ⟨.found (name token), position + 1, depth, stack⟩ := by
  simp only [readPrimary, hrest, hkind]
  split
  · rfl
  · rename_i hbracketed
    cases rest with
    | nil => rfl
    | cons next rest =>
        have hnext := hbehind (Bool.eq_false_iff.mpr hbracketed) next rfl
        simp only [hnext, Bool.false_eq_true, if_false]

/-! ### Chains and comparisons -/

/-- **Chains.**  What stands behind an operand of a chain is read up to the end of the chain. -/
theorem chainTail_settles {operand : Rule Expr bound}
    (settling : SettlingRule ending tokens level.tighter operand) (left : Expr)
    (ts : List Token) (within : ts.length < bound) (depth : Nat)
    {front : Option (Expr × Operator)} {tree : Expr} (hjoined : joined front tree = left)
    (hrest : tokens.drop position = ts)
    (hbounds : Config.InBounds tokens
      ⟨.found tree, position, depth, .operand level base front :: stack⟩) :
    Settles ending tokens ⟨.found tree, position, depth, .operand level base front :: stack⟩
      stack base (chainTail level.joiners operand left ts within depth) := by
  have hnext : Config.next ending tokens
      ⟨.found tree, position, depth, .operand level base front :: stack⟩ =
      resumeChain tokens level base left position depth stack := by
    rw [← hjoined]
    rfl
  -- The frame changes from operand to operand; what it makes of the next one is `left`.
  fun_induction chainTail level.joiners operand left ts within depth
    generalizing front tree position with
  | case1 left depth =>
      rw [resumeChain, operatorAt?_of_nil hrest] at hnext
      exact .found hrest (.step hnext)
  | case2 left depth token rest within hop =>
      rw [resumeChain, operatorAt?_of_cons hrest, hop] at hnext
      exact .found hrest (.step hnext)
  | case3 left depth token rest within op hop hfull =>
      rw [resumeChain, operatorAt?_of_cons hrest, hop] at hnext
      simp only [Option.map_some, if_pos hfull] at hnext
      exact .failed (drop_succ_of_cons hrest) (.step hnext)
  | case4 left depth token rest within op hop hroom deeper _ =>
      rename_i ih
      rw [resumeChain, operatorAt?_of_cons hrest, hop] at hnext
      simp only [Option.map_some, if_neg hroom] at hnext
      have hafter := drop_succ_of_cons hrest
      have hoperand := (Leads.step hnext).inBounds hbounds
      refine .behind (.step hnext) ?_
      refine (settling _ _ _ _ _ hafter hoperand).bind (by simp)
        fun right position' hright hleads => ?_
      exact .widen _ (ih right rfl hright (hleads.inBounds hoperand) rfl)

/-- A chain: its first operand, and what stands behind it. -/
theorem chain_settles (level : Level) {ts : List Token} {operand : Rule Expr (ts.length + 1)}
    (settling : SettlingRule ending tokens level.tighter operand)
    (hrest : tokens.drop position = ts)
    (hbounds : Config.InBounds tokens ⟨.read level, position, depth, stack⟩)
    (hjoiners : level.joiners ≠ []) :
    Settles ending tokens ⟨.read level, position, depth, stack⟩ stack depth
      (chain level.joiners ts operand depth) := by
  have hstep : Leads ending tokens ⟨.read level, position, depth, stack⟩
      ⟨.read level.tighter, position, depth, .operand level depth none :: stack⟩ :=
    .step (readLevel_of_joiners hjoiners)
  have hfirst := hstep.inBounds hbounds
  refine .behind hstep ?_
  refine (settling ts _ depth position _ hrest hfirst).bind (by simp)
    fun first _ hbehind hleads => ?_
  exact .widen _ (chainTail_settles settling first.value _ _ depth rfl hbehind
    (hleads.inBounds hfirst))

/-- A comparison: its left side, and a right side if anything is compared. -/
theorem compareWith_settles {left : Parsed Token Expr bound} {right : Rule Expr bound}
    (settling : SettlingRule ending tokens .sum right) (hrest : tokens.drop position = left.rest)
    (hbounds : Config.InBounds tokens
      ⟨.found left.value, position, depth, .leftSide :: stack⟩) :
    Settles ending tokens ⟨.found left.value, position, depth, .leftSide :: stack⟩ stack depth
      (compareWith left right depth) := by
  have hnext : Config.next ending tokens
      ⟨.found left.value, position, depth, .leftSide :: stack⟩ =
      resume ending tokens left.value .leftSide position depth stack := rfl
  rw [resume] at hnext
  unfold compareWith
  split
  · rename_i hnil
    rw [operatorAt?_of_nil (hrest.trans hnil)] at hnext
    exact .found hrest (.step hnext)
  · rename_i token rest hcons
    rw [operatorAt?_of_cons (hrest.trans hcons)] at hnext
    split
    · rename_i hop
      rw [hop] at hnext
      exact .found hrest (.step hnext)
    · rename_i op hop
      rw [hop] at hnext
      have hright := (Leads.step hnext).inBounds hbounds
      refine .behind (.step hnext) ?_
      refine (settling rest _ depth _ _ (drop_succ_of_cons (hrest.trans hcons)) hright).bind
        (by simp) fun operand position' hbehind _ => ?_
      exact .found hbehind (.step rfl)

/-! ### Levels of nesting -/

/-- An error inside a level gives the level back, and there is one to give back. -/
theorem Leads.giveBack {error : ParseError} (hc : c.InBounds tokens)
    (h : Leads ending tokens c ⟨.failed error, position, depth, .nested nesting :: stack⟩) :
    Leads ending tokens c ⟨.failed error, position, depth - 1, stack⟩ := by
  -- The depth is not zero: a run within bounds has what stands on its stack.
  have hbacked : Backed (.nested nesting :: stack) depth := (h.inBounds hc).backed
  cases hbacked with
  | nested => exact h.trans (.step rfl)

/-- A level is refused; or it is taken, and what fails inside it gives it back. -/
theorem Settles.taken {α : Type} {inner : Nat → Except Failure α}
    {next : α → Except Failure (Parsed Token Expr bound)} {span : Span}
    (hrest : tokens.drop position = rest)
    (hbounds : (enter span nesting level position depth stack).InBounds tokens)
    (hinner : Config.InBounds tokens ⟨.read level, position, depth + 1, .nested nesting :: stack⟩ →
      (∀ value, inner (depth + 1) = .ok value →
        Settles ending tokens ⟨.read level, position, depth + 1, .nested nesting :: stack⟩
          stack depth (next value)) ∧
      (∀ failure, inner (depth + 1) = .error failure →
        ∃ position' nesting', tokens.drop position' = failure.rest ∧
          Leads ending tokens ⟨.read level, position, depth + 1, .nested nesting :: stack⟩
            ⟨.failed failure.error, position', failure.depth, .nested nesting' :: stack⟩)) :
    Settles ending tokens (enter span nesting level position depth stack) stack depth
      (deeper span rest depth inner >>= next) := by
  by_cases hfull : depthLimit ≤ depth
  · rw [enter, if_pos hfull, deeper, if_pos hfull]
    exact .failed hrest .refl
  · rw [enter, if_neg hfull] at hbounds ⊢
    rw [deeper, if_neg hfull]
    obtain ⟨hfound, hfailed⟩ := hinner hbounds
    cases hresult : inner (depth + 1) with
    | ok value => exact hfound value hresult
    | error failure =>
        obtain ⟨position', nesting', hrest, h⟩ := hfailed failure hresult
        exact .failed hrest (h.giveBack hbounds)

/-- An expression inside a level, and what stands behind it. -/
theorem Settles.inside {inner : Nat → Except Failure (Parsed Token Expr bound)}
    {next : Parsed Token Expr bound → Except Failure (Parsed Token Expr bound')} {span : Span}
    (hrest : tokens.drop position = rest)
    (hbounds : (enter span nesting level position depth stack).InBounds tokens)
    (settling : ∀ depth position stack, tokens.drop position = rest →
      Config.InBounds tokens ⟨.read level, position, depth, stack⟩ →
      Settles ending tokens ⟨.read level, position, depth, stack⟩ stack depth (inner depth))
    (hnext : ∀ parsed position, tokens.drop position = parsed.rest →
      Settles ending tokens
        ⟨.found parsed.value, position, depth + 1, .nested nesting :: stack⟩ stack depth
        (next parsed)) :
    Settles ending tokens (enter span nesting level position depth stack) stack depth
      (deeper span rest depth inner >>= next) := by
  refine .taken hrest hbounds fun hinside => ?_
  have hsettled := settling (depth + 1) position _ hrest hinside
  constructor
  · intro parsed hparsed
    rw [hparsed] at hsettled
    cases hsettled with
    | found hafter h => exact (hnext _ _ hafter).behind h
  · intro failure hfailure
    rw [hfailure] at hsettled
    cases hsettled with
    | failed hafter h => exact ⟨_, _, hafter, h⟩

/-- A sign or a `not`, and its operand. -/
theorem prefixed_settles {op : Operator}
    {inner : Nat → Except Failure (Parsed Token Expr rest.length)}
    (hrest : tokens.drop position = token :: rest)
    (hop : operatorAt? tokens ops position = some (op, token.span))
    (hbegin : readLevel ending tokens level position depth stack =
      readSigned tokens ops level position depth stack)
    (hbounds : Config.InBounds tokens ⟨.read level, position, depth, stack⟩)
    (settling : ∀ depth position stack, tokens.drop position = rest →
      Config.InBounds tokens ⟨.read level, position, depth, stack⟩ →
      Settles ending tokens ⟨.read level, position, depth, stack⟩ stack depth (inner depth)) :
    Settles ending tokens ⟨.read level, position, depth, stack⟩ stack depth (do
      let operand ← deeper token.span rest depth inner
      pure ((operand.map (unary op token.span)).widen (Nat.le_succ rest.length))) := by
  rw [readSigned, hop] at hbegin
  have hstep := Leads.step (c := ⟨.read level, position, depth, stack⟩) hbegin
  refine .behind hstep ?_
  refine .inside (drop_succ_of_cons hrest) (hstep.inBounds hbounds) settling
    fun operand position' hbehind => ?_
  exact .found hbehind (.step rfl)

/-- No sign and no `not`. -/
theorem unprefixed_settles {ts : List Token} {result : Except Failure (Parsed Token Expr bound)}
    (hprefixes : level.prefixes ≠ []) (hrest : tokens.drop position = ts)
    (hnone : ∀ first ∈ ts.head?, operatorAmong? level.prefixes first = none)
    (hbounds : Config.InBounds tokens ⟨.read level, position, depth, stack⟩)
    (settling : Config.InBounds tokens ⟨.read level.tighter, position, depth, stack⟩ →
      Settles ending tokens ⟨.read level.tighter, position, depth, stack⟩ stack depth result) :
    Settles ending tokens ⟨.read level, position, depth, stack⟩ stack depth result := by
  have hbegin : readLevel ending tokens level position depth stack =
      ⟨.read level.tighter, position, depth, stack⟩ := by
    rw [readLevel_of_prefixes hprefixes, readSigned, operatorAt?_eq_none hrest hnone]
  have hstep := Leads.step (c := ⟨.read level, position, depth, stack⟩) hbegin
  exact .behind hstep (settling (hstep.inBounds hbounds))

/-- The parenthesis behind a group. -/
theorem closeGroup_settles {opening : Span} {inner : Parsed Token Expr bound}
    (hrest : tokens.drop position = inner.rest) :
    Settles ending tokens
      ⟨.found inner.value, position, depth + 1, .nested (.group opening) :: stack⟩ stack depth
      (closeGroup opening inner depth) := by
  have hnext : Config.next ending tokens
      ⟨.found inner.value, position, depth + 1, .nested (.group opening) :: stack⟩ =
      resumeNested ending tokens inner.value (.group opening) position (depth + 1) stack := rfl
  simp only [resumeNested, giveBack] at hnext
  unfold closeGroup
  split
  · rename_i hnil
    simp only [hrest.trans hnil] at hnext
    exact .failed (hrest.trans hnil) (.step hnext)
  · rename_i token rest hcons
    simp only [hrest.trans hcons] at hnext
    by_cases hclose : token.isOperator .closeParenthesis
    · rw [if_pos hclose] at hnext ⊢
      exact .found (drop_succ_of_cons (hrest.trans hcons)) (.step hnext)
    · rw [if_neg hclose] at hnext ⊢
      exact .failed (hrest.trans hcons) (.step hnext)

/-- The parenthesis behind the arguments of a call. -/
theorem closeCall_settles {name : Token} {list : Parsed Token (List Expr) bound}
    {front : List Expr} {last : Expr} (hrest : tokens.drop position = list.rest)
    (hvalues : front ++ [last] = list.value)
    (hended : operatorAt? tokens [.comma] position = none) :
    Settles ending tokens
      ⟨.found last, position, depth + 1, .nested (.arguments name front) :: stack⟩ stack depth
      (closeCall ending name list depth) := by
  have hnext : Config.next ending tokens
      ⟨.found last, position, depth + 1, .nested (.arguments name front) :: stack⟩ =
      resumeNested ending tokens last (.arguments name front) position (depth + 1) stack := rfl
  simp only [resumeNested, hended, giveBack, hvalues] at hnext
  unfold closeCall
  split
  · rename_i hnil
    simp only [hrest.trans hnil] at hnext
    exact .failed (hrest.trans hnil) (.step hnext)
  · rename_i token rest hcons
    have hafter := drop_succ_of_cons (hrest.trans hcons)
    simp only [hrest.trans hcons] at hnext
    by_cases hclose : token.isOperator .closeParenthesis
    · rw [if_pos hclose] at hnext ⊢
      exact .found hafter (.step hnext)
    · rw [if_neg hclose] at hnext ⊢
      exact .failed hafter (.step hnext)

/-- **Arguments.**  They are read up to the last one, behind which no comma stands. -/
theorem arguments_settles {argument : Rule Expr bound}
    (settling : SettlingRule ending tokens .disjunction argument) {name : Token}
    {before : List Expr} (ts : List Token) (within : ts.length < bound)
    (hrest : tokens.drop position = ts)
    (hbounds : Config.InBounds tokens
      ⟨.read .disjunction, position, depth, .nested (.arguments name before) :: stack⟩) :
    SettlesList ending tokens
      ⟨.read .disjunction, position, depth, .nested (.arguments name before) :: stack⟩
      name before stack depth (arguments argument ts within depth) := by
  induction ts, within using arguments.induct generalizing before position with
  | case1 ts within ih =>
      rw [arguments]
      have hfirst := settling ts within depth position _ hrest hbounds
      generalize argument ts within depth = result at hfirst
      cases hfirst with
      | failed hafter h => exact .failed hafter h
      | @found first position' hafter h =>
          have hlast : operatorAt? tokens [.comma] position' = none →
              SettlesList ending tokens
                ⟨.read .disjunction, position, depth, .nested (.arguments name before) :: stack⟩
                name before stack depth (.ok (first.map ([·]))) :=
            fun hended => .found hafter rfl hended h
          dsimp only [bind, Except.bind]
          split
          · rename_i hnil
            exact hlast (operatorAt?_of_nil (hafter.trans hnil))
          · rename_i token rest hcons
            by_cases hcomma : token.isOperator .comma
            · have hop := operatorAt?_of_isOperator (hafter.trans hcons) hcomma
              have hnext : Config.next ending tokens
                  ⟨.found first.value, position', depth,
                    .nested (.arguments name before) :: stack⟩ =
                  ⟨.read .disjunction, position' + 1, depth,
                    .nested (.arguments name (before ++ [first.value])) :: stack⟩ := by
                simp only [Config.next, resume, resumeNested, hop]
              have hstep := h.trans (.step hnext)
              have hothers := ih first token rest hcons (drop_succ_of_cons (hafter.trans hcons))
                (hstep.inBounds hbounds)
              rw [if_pos hcomma]
              generalize arguments argument rest _ depth = result at hothers
              cases hothers with
              | failed hrest h => exact .failed hrest (hstep.trans h)
              | found hrest hvalues hended h =>
                  refine .found hrest ?_ hended (hstep.trans h)
                  rw [hvalues]
                  exact List.append_assoc before [first.value] _
            · rw [if_neg hcomma]
              exact hlast (operatorAt?_of_not_isOperator (hafter.trans hcons) hcomma)

/-- A group. -/
theorem group_settles {inner : Nat → Except Failure (Parsed Token Expr rest.length)}
    (hkind : token.kind = .operator .openParenthesis)
    (hrest : tokens.drop position = token :: rest)
    (hbounds : Config.InBounds tokens ⟨.read .primary, position, depth, stack⟩)
    (settling : ∀ depth position stack, tokens.drop position = rest →
      Config.InBounds tokens ⟨.read .disjunction, position, depth, stack⟩ →
      Settles ending tokens ⟨.read .disjunction, position, depth, stack⟩ stack depth
        (inner depth)) :
    Settles ending tokens ⟨.read .primary, position, depth, stack⟩ stack depth (do
      let inner ← deeper token.span rest depth inner
      let group ← closeGroup token.span inner depth
      pure (group.widen (Nat.le_succ rest.length))) := by
  have hnext : Config.next ending tokens ⟨.read .primary, position, depth, stack⟩ =
      enter token.span (.group token.span) .disjunction (position + 1) depth stack := by
    simp only [Config.next, readLevel, readPrimary, hrest, hkind]
  have hstep := Leads.step hnext
  refine .behind hstep ?_
  refine .inside (drop_succ_of_cons hrest) (hstep.inBounds hbounds) settling
    fun inner position' hbehind => ?_
  exact .widen _ (closeGroup_settles hbehind)

/-- A call with arguments. -/
theorem call_settles {name opening : Token} {after : List Token}
    {argument : Rule Expr (after.length + 1)}
    (settling : SettlingRule ending tokens .disjunction argument)
    (hkind : name.kind = .identifier) (hbare : name.isBracketed = false)
    (hopen : opening.isOperator .openParenthesis)
    (hfull : ∀ next ∈ after.head?, next.isOperator .closeParenthesis = false)
    (hrest : tokens.drop position = name :: opening :: after)
    (hbounds : Config.InBounds tokens ⟨.read .primary, position, depth, stack⟩) :
    Settles ending tokens ⟨.read .primary, position, depth, stack⟩ stack depth (do
      let list ← deeper opening.span after depth fun d =>
        arguments argument after (Nat.lt_succ_self _) d
      let whole ← closeCall ending name list depth
      pure (whole.widen (Nat.le_add_right after.length 2))) := by
  have hnone : after.head?.filter (·.isOperator .closeParenthesis) = none :=
    Option.filter_eq_none_iff.mpr fun next hnext => Bool.eq_false_iff.mp (hfull next hnext)
  have hnext : Config.next ending tokens ⟨.read .primary, position, depth, stack⟩ =
      enter opening.span (.arguments name []) .disjunction (position + 2) depth stack := by
    simp only [Config.next, readLevel, readPrimary, hrest, hkind, hbare, hopen, hnone,
      Bool.false_eq_true, if_false, if_true]
  have hstep := Leads.step hnext
  have hafter : tokens.drop (position + 2) = after :=
    drop_succ_of_cons (drop_succ_of_cons hrest)
  refine .behind hstep (.taken hafter (hstep.inBounds hbounds) fun hinside => ?_)
  have hlist := arguments_settles settling after (Nat.lt_succ_self _) hafter hinside
  constructor
  · intro list hfound
    rw [hfound] at hlist
    cases hlist with
    | found hbehind hvalues hended h =>
        exact .behind h (.widen _ (closeCall_settles hbehind hvalues hended))
  · intro failure hfailed
    rw [hfailed] at hlist
    cases hlist with
    | failed hbehind h => exact ⟨_, _, hbehind, h⟩

/-- A literal or a name that is not called is one token. -/
theorem token_settles {tree : Expr} (hrest : tokens.drop position = token :: rest)
    (hbegin : readPrimary ending tokens position depth stack =
      ⟨.found tree, position + 1, depth, stack⟩) :
    Settles ending tokens ⟨.read .primary, position, depth, stack⟩ stack depth
      (.ok ⟨tree, rest, Nat.lt_succ_self rest.length⟩) :=
  .found (drop_succ_of_cons hrest) (.step hbegin)

/-- A call without arguments is three tokens. -/
theorem emptyCall_settles {name opening closing : Token}
    (hkind : name.kind = .identifier) (hbare : name.isBracketed = false)
    (hopen : opening.isOperator .openParenthesis)
    (hclosing : closing.isOperator .closeParenthesis)
    (hrest : tokens.drop position = name :: opening :: closing :: rest)
    (shorter : rest.length < (name :: opening :: closing :: rest).length) :
    Settles ending tokens ⟨.read .primary, position, depth, stack⟩ stack depth
      (.ok ⟨call name [] closing.span, rest, shorter⟩) := by
  refine .found (drop_succ_of_cons (drop_succ_of_cons (drop_succ_of_cons hrest))) (.step ?_)
  simp only [Config.next, readLevel, readPrimary, hrest, hkind, hbare, hopen, hclosing,
    List.head?_cons, Option.filter_some, Bool.false_eq_true, if_false, if_true]

/-- **Agreement.**  In steps a level is read just as `Level.read` reads it. -/
theorem Level.read_settles (ending : Nat) (tokens : List Token) (level : Level)
    (ts : List Token) (depth position : Nat) (stack : List Frame)
    (hrest : tokens.drop position = ts)
    (hbounds : Config.InBounds tokens ⟨.read level, position, depth, stack⟩) :
    Settles ending tokens ⟨.read level, position, depth, stack⟩ stack depth
      (level.read ending ts depth) := by
  induction level, ts, depth using Level.rule_induction generalizing position stack with
  | chained level ts depth hjoiners ih =>
      rw [read_chain ending hjoiners]
      exact chain_settles level ih hrest hbounds hjoiners
  | unprefixed level ts depth hprefixes hnone ih =>
      rw [read_unprefixed ending hprefixes hnone]
      exact unprefixed_settles hprefixes hrest hnone hbounds (ih _ _ hrest)
  | negated token rest depth hnot ih =>
      rw [read_negated ending hnot]
      exact prefixed_settles hrest (operatorAt?_of_isOperator hrest hnot) rfl hbounds ih
  | signed token op rest depth hop ih =>
      rw [read_signed ending hop]
      refine prefixed_settles hrest ?_ rfl hbounds ih
      rw [operatorAt?_of_cons hrest, hop]
      rfl
  | comparison ts depth ihleft ihright =>
      rw [read_comparison]
      have hstep : Leads ending tokens ⟨.read .comparison, position, depth, stack⟩
        ⟨.read .sum, position, depth, .leftSide :: stack⟩ := .step rfl
      have hleft := hstep.inBounds hbounds
      refine .behind hstep ?_
      refine (ihleft _ _ hrest hleft).bind (by simp) fun left _ hbehind hleads => ?_
      exact compareWith_settles ihright hbehind (hleads.inBounds hleft)
  | missing depth =>
      rw [read_nil]
      refine .failed hrest (.step ?_)
      simp only [Config.next, readLevel, readPrimary, hrest]
  | literal token value rest depth hkind =>
      rw [read_literal ending hkind]
      exact token_settles hrest (by simp only [readPrimary, hrest, hkind])
  | group token rest depth hkind ih =>
      rw [read_group ending hkind]
      exact group_settles hkind hrest hbounds ih
  | misplaced token op rest depth hkind hop =>
      rw [read_operator ending hkind hop]
      refine .failed (drop_succ_of_cons hrest) (.step ?_)
      simp only [Config.next, readLevel, readPrimary, hrest, hkind]
  | name token rest depth hkind hbehind =>
      rw [read_name ending hkind hbehind]
      exact token_settles hrest (readPrimary_name hrest hkind hbehind)
  | emptyCall token opening closing rest depth hkind hbare hopen hclosing =>
      rw [read_emptyCall ending hkind hbare hopen hclosing]
      exact emptyCall_settles hkind hbare hopen hclosing hrest _
  | call token opening rest depth hkind hbare hopen hfull ih =>
      rw [read_call ending hkind hbare hopen hfull]
      exact call_settles ih hkind hbare hopen hfull hrest hbounds

end QueryFormula.Grammar
