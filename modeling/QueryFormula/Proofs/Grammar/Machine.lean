import Mathlib.Logic.Function.Iterate
import QueryFormula.Proofs.Grammar.Phrase

/-!
# Reading in steps

A parser at work holds three things: how many tokens it has read, the depth it stands at, and
what becomes of the expression that it reads next (`Frame`).  `Config.next` is one step of it.
A step touches the position and the depth only in the ways a parser has: a token is passed, a
level is taken (`enter`) or given back (`giveBack`), and a chain that ends sets the depth back
to what it was where the chain began.

Giving back a level is the one place where the depth could fall below zero, and `underflow` is
a control of its own for it.  It is never met, because every level that is to be given back
has been taken (`Backed`).  A step keeps this and the bounds on position and depth, moves
forward, and makes the configuration lighter: `advance_next` says all of it, and what a run
keeps follows from it.
-/

namespace QueryFormula.Grammar

/-- What a level is taken for. -/
inductive Nesting where
  | sign (op : Operator) (span : Span)
  | group (opening : Span)
  /-- The arguments of a call, and those of them that were read. -/
  | arguments (name : Token) (before : List Expr)

/-- What becomes of an expression that is read. -/
inductive Frame where
  /-- An operand of a chain that began at the depth `base`, behind what is in front of it. -/
  | operand (level : Level) (base : Nat) (front : Option (Expr × Operator))
  | leftSide
  | rightSide (left : Expr) (op : Operator)
  | nested (nesting : Nesting)
  /-- A formula, behind which no token may stand. -/
  | formula

/-- What the next step works on. -/
inductive Control where
  | read (level : Level)
  | found (tree : Expr)
  | failed (error : ParseError)
  /-- A level was given back where none is taken. -/
  | underflow

/-- A parser between two steps; the innermost frame is the first one. -/
structure Config where
  control : Control
  position : Nat
  depth : Nat
  stack : List Frame

section

variable (ending : Nat) (tokens : List Token)

/-- The token at a position, if it is one of these operators, and its place. -/
def operatorAt? (ops : List Operator) (position : Nat) : Option (Operator × Span) :=
  tokens[position]?.bind fun token => (operatorAmong? ops token).map (·, token.span)

/-- Take a level and read inside it. -/
def enter (span : Span) (nesting : Nesting) (level : Level) (position depth : Nat)
    (stack : List Frame) : Config :=
  if depthLimit ≤ depth then ⟨.failed ⟨.tooDeep, span⟩, position, depth, stack⟩
  else ⟨.read level, position, depth + 1, .nested nesting :: stack⟩

/-- Give a level back and go on. -/
def giveBack (position depth : Nat) (stack : List Frame) (next : Nat → Config) : Config :=
  match depth with
  | 0 => ⟨.underflow, position, 0, stack⟩
  | depth + 1 => next depth

/-- Begin an expression that one of these operators may stand in front of. -/
def readSigned (ops : List Operator) (level : Level) (position depth : Nat)
    (stack : List Frame) : Config :=
  match operatorAt? tokens ops position with
  | some (op, span) => enter span (.sign op span) level (position + 1) depth stack
  | none => ⟨.read level.tighter, position, depth, stack⟩

/-- Begin a literal, a name, a call or a group. -/
def readPrimary (position depth : Nat) (stack : List Frame) : Config :=
  match tokens.drop position with
  | [] => ⟨.failed ⟨.unexpectedEnd, endSpan ending⟩, position, depth, stack⟩
  | token :: rest =>
    match token.kind with
    | .literal value =>
      ⟨.found (.literal value (some token.span)), position + 1, depth, stack⟩
    | .operator .openParenthesis =>
      enter token.span (.group token.span) .disjunction (position + 1) depth stack
    | .operator _ =>
      ⟨.failed ⟨.unexpectedOperator token.text, token.span⟩, position + 1, depth, stack⟩
    | .identifier =>
      if token.isBracketed then ⟨.found (name token), position + 1, depth, stack⟩
      else
        match rest with
        | [] => ⟨.found (name token), position + 1, depth, stack⟩
        | opening :: after =>
          if opening.isOperator .openParenthesis then
            match after.head?.filter (·.isOperator .closeParenthesis) with
            | some close => ⟨.found (call token [] close.span), position + 3, depth, stack⟩
            | none =>
              enter opening.span (.arguments token []) .disjunction (position + 2) depth stack
          else ⟨.found (name token), position + 1, depth, stack⟩

/-- Begin an expression of a level. -/
def readLevel (level : Level) (position depth : Nat) (stack : List Frame) : Config :=
  match level with
  | .disjunction | .conjunction | .sum | .product =>
    ⟨.read level.tighter, position, depth, .operand level depth none :: stack⟩
  | .negation => readSigned tokens [.not] .negation position depth stack
  | .comparison => ⟨.read .sum, position, depth, .leftSide :: stack⟩
  | .signed => readSigned tokens [.plus, .minus] .signed position depth stack
  | .primary => readPrimary ending tokens position depth stack

/-- What a chain has become with one operand more. -/
def joined (front : Option (Expr × Operator)) (operand : Expr) : Expr :=
  match front with
  | none => operand
  | some (left, op) => appendOperand left op operand

/-- Go on with a chain, or end it where no operator of it follows. -/
def resumeChain (level : Level) (base : Nat) (left : Expr) (position depth : Nat)
    (stack : List Frame) : Config :=
  match operatorAt? tokens level.joiners position with
  | none => ⟨.found left, position, base, stack⟩
  | some (op, span) =>
    if !isChainOf left op && depthLimit ≤ depth then
      ⟨.failed ⟨.tooDeep, span⟩, position + 1, depth, stack⟩
    else
      ⟨.read level.tighter, position + 1, if isChainOf left op then depth else depth + 1,
        .operand level base (some (left, op)) :: stack⟩

/-- Go on behind an expression inside a level: behind all but an argument in front of a
comma the level is given back. -/
def resumeNested (tree : Expr) (nesting : Nesting) (position depth : Nat)
    (stack : List Frame) : Config :=
  match nesting with
  | .sign op span =>
    giveBack position depth stack fun depth => ⟨.found (unary op span tree), position, depth, stack⟩
  | .group opening =>
    giveBack position depth stack fun depth =>
      match tokens.drop position with
      | [] => ⟨.failed ⟨.unclosedGroup, opening⟩, position, depth, stack⟩
      | token :: _ =>
        if token.isOperator .closeParenthesis then ⟨.found tree, position + 1, depth, stack⟩
        else ⟨.failed ⟨.unclosedGroup, token.span⟩, position, depth, stack⟩
  | .arguments name before =>
    match operatorAt? tokens [.comma] position with
    | some _ =>
      ⟨.read .disjunction, position + 1, depth,
        .nested (.arguments name (before ++ [tree])) :: stack⟩
    | none =>
      giveBack position depth stack fun depth =>
        match tokens.drop position with
        | [] => ⟨.failed ⟨.unclosedCall none, endSpan ending⟩, position, depth, stack⟩
        | token :: _ =>
          if token.isOperator .closeParenthesis then
            ⟨.found (call name (before ++ [tree]) token.span), position + 1, depth, stack⟩
          else
            ⟨.failed ⟨.unclosedCall (some token.text), token.span⟩, position + 1, depth, stack⟩

/-- Go on behind an expression. -/
def resume (tree : Expr) (frame : Frame) (position depth : Nat) (stack : List Frame) : Config :=
  match frame with
  | .operand level base front =>
    resumeChain tokens level base (joined front tree) position depth stack
  | .leftSide =>
    match operatorAt? tokens Operator.comparisons position with
    | none => ⟨.found tree, position, depth, stack⟩
    | some (op, _) => ⟨.read .sum, position + 1, depth, .rightSide tree op :: stack⟩
  | .rightSide left op => ⟨.found (binary left op tree), position, depth, stack⟩
  | .nested nesting => resumeNested ending tokens tree nesting position depth stack
  | .formula =>
    match tokens.drop position with
    | [] => ⟨.found tree, position, depth, stack⟩
    | token :: _ => ⟨.failed ⟨.trailing token.text, token.span⟩, position, depth, stack⟩

/-- Leave a frame with an error.  A level is given back; a chain that is broken off sets
nothing back. -/
def abandon (error : ParseError) (frame : Frame) (position depth : Nat)
    (stack : List Frame) : Config :=
  match frame with
  | .nested _ =>
    giveBack position depth stack fun depth => ⟨.failed error, position, depth, stack⟩
  | _ => ⟨.failed error, position, depth, stack⟩

/-- One step; what is found or failed at the bottom of the stack stays. -/
def Config.next (c : Config) : Config :=
  match c.control, c.stack with
  | .read level, stack => readLevel ending tokens level c.position c.depth stack
  | .found tree, frame :: stack => resume ending tokens tree frame c.position c.depth stack
  | .failed error, frame :: stack => abandon error frame c.position c.depth stack
  | .found _, [] | .failed _, [] | .underflow, _ => c

end

/-- There is a tree or an error. -/
def Control.IsResult : Control → Prop
  | .found _ | .failed _ => True
  | .read _ | .underflow => False

/-- The call has ended. -/
def Config.Halted (c : Config) : Prop :=
  c.control.IsResult ∧ c.stack = []

/-! ### What every step keeps -/

/-- Each level that is to be given back has been taken, and a chain began no deeper than
reading stands now. -/
inductive Backed : List Frame → Nat → Prop
  | nil {depth : Nat} : Backed [] depth
  | operand {level : Level} {base depth : Nat} {front : Option (Expr × Operator)}
      {stack : List Frame} (within : base ≤ depth) (below : Backed stack base) :
      Backed (.operand level base front :: stack) depth
  | leftSide {depth : Nat} {stack : List Frame} (below : Backed stack depth) :
      Backed (.leftSide :: stack) depth
  | rightSide {left : Expr} {op : Operator} {depth : Nat} {stack : List Frame}
      (below : Backed stack depth) : Backed (.rightSide left op :: stack) depth
  | nested {nesting : Nesting} {depth : Nat} {stack : List Frame} (below : Backed stack depth) :
      Backed (.nested nesting :: stack) (depth + 1)
  | formula {depth : Nat} {stack : List Frame} (below : Backed stack depth) :
      Backed (.formula :: stack) depth

/-- More levels are as good: an error leaves them to a chain that is broken off. -/
theorem Backed.mono {stack : List Frame} {depth deeper : Nat} (h : Backed stack depth)
    (hle : depth ≤ deeper) : Backed stack deeper := by
  induction h generalizing deeper with
  | nil => exact .nil
  | operand within below _ => exact .operand (Nat.le_trans within hle) below
  | leftSide _ ih => exact .leftSide (ih hle)
  | rightSide _ ih => exact .rightSide (ih hle)
  | nested _ ih =>
      obtain ⟨deeper, rfl⟩ : ∃ d, deeper = d + 1 := ⟨deeper - 1, by omega⟩
      exact .nested (ih (by omega))
  | formula _ ih => exact .formula (ih hle)

/-- Depth and position are within their bounds, and there are the levels to give back. -/
structure Config.InBounds (tokens : List Token) (c : Config) : Prop where
  noUnderflow : c.control ≠ .underflow
  inside : c.position ≤ tokens.length
  limited : c.depth ≤ depthLimit
  backed : Backed c.stack c.depth

/-- The steps through the levels of the grammar that may come before the next token. -/
def Control.weight : Control → Nat
  | .read level => 2 * level.height + 1
  | .found _ | .failed _ | .underflow => 0

/-- A bound on the steps that are left: sixteen for each token, one for each frame, and those
through the levels. -/
def Config.weight (tokens : List Token) (c : Config) : Nat :=
  16 * (tokens.length - c.position) + c.stack.length + c.control.weight

/-- What a step makes of a configuration within bounds. -/
structure Advance (tokens : List Token) (c c' : Config) : Prop where
  bounds : c'.InBounds tokens
  forward : c.position ≤ c'.position
  lighter : c'.weight tokens < c.weight tokens

theorem Control.IsResult.weight_eq {control : Control} (h : control.IsResult) :
    control.weight = 0 := by
  cases control <;> trivial

theorem Control.IsResult.ne_underflow {control : Control} (h : control.IsResult) :
    control ≠ .underflow := by
  rintro rfl
  exact h

theorem Level.height_le (level : Level) : level.height ≤ 7 := by
  cases level <;> decide

variable {ending : Nat} {tokens rest : List Token} {token : Token} {control control' : Control}
  {level inner : Level} {position position' depth depth' : Nat} {frame frame' : Frame}
  {stack : List Frame} {tree : Expr} {c : Config}

theorem inside_of_drop (h : tokens.drop position = token :: rest) :
    position + 1 + rest.length = tokens.length := by
  have hlength := congrArg List.length h
  rw [List.length_drop, List.length_cons] at hlength
  omega

theorem lt_of_operatorAt? {ops : List Operator} {found : Operator × Span}
    (h : operatorAt? tokens ops position = some found) : position < tokens.length := by
  obtain ⟨token, htoken, _⟩ := Option.bind_eq_some_iff.mp h
  exact (List.getElem?_eq_some_iff.mp htoken).1

/-! ### Beginning an expression -/

/-- A level is taken behind a token that was passed. -/
theorem advance_enter {span : Span} {nesting : Nesting}
    (h : Config.InBounds tokens ⟨.read level, position, depth, stack⟩)
    (hpassed : position < position') (hinside : position' ≤ tokens.length) :
    Advance tokens ⟨.read level, position, depth, stack⟩
      (enter span nesting inner position' depth stack) := by
  obtain ⟨-, -, hlimited, hbacked⟩ := h
  have hheight := inner.height_le
  unfold enter
  split
  · refine ⟨⟨by simp, hinside, hlimited, hbacked⟩, Nat.le_of_lt hpassed, ?_⟩
    simp only [Config.weight, Control.weight]
    omega
  · rename_i hfree
    have hdeeper : depth + 1 ≤ depthLimit := by omega
    refine ⟨⟨by simp, hinside, hdeeper, .nested hbacked⟩, Nat.le_of_lt hpassed, ?_⟩
    simp only [Config.weight, Control.weight, List.length_cons]
    omega

/-- There is a result at once. -/
theorem advance_settle (h : Config.InBounds tokens ⟨.read level, position, depth, stack⟩)
    (hresult : control.IsResult) (hforward : position ≤ position')
    (hinside : position' ≤ tokens.length) :
    Advance tokens ⟨.read level, position, depth, stack⟩ ⟨control, position', depth, stack⟩ := by
  obtain ⟨-, -, hlimited, hbacked⟩ := h
  refine ⟨⟨hresult.ne_underflow, hinside, hlimited, hbacked⟩, hforward, ?_⟩
  simp only [Config.weight, hresult.weight_eq]
  simp only [Control.weight]
  omega

/-- A tighter level is read at the same place. -/
theorem advance_tighten (h : Config.InBounds tokens ⟨.read level, position, depth, stack⟩)
    (hheight : inner.height < level.height) :
    Advance tokens ⟨.read level, position, depth, stack⟩
      ⟨.read inner, position, depth, stack⟩ := by
  obtain ⟨-, hinside, hlimited, hbacked⟩ := h
  refine ⟨⟨by simp, hinside, hlimited, hbacked⟩, Nat.le_refl _, ?_⟩
  simp only [Config.weight, Control.weight]
  omega

/-- A tighter level is read in a frame that holds no level of its own. -/
theorem advance_descend (h : Config.InBounds tokens ⟨.read level, position, depth, stack⟩)
    (hheight : inner.height < level.height) (hbacked : Backed (frame :: stack) depth) :
    Advance tokens ⟨.read level, position, depth, stack⟩
      ⟨.read inner, position, depth, frame :: stack⟩ := by
  obtain ⟨-, hinside, hlimited, -⟩ := h
  refine ⟨⟨by simp, hinside, hlimited, hbacked⟩, Nat.le_refl _, ?_⟩
  simp only [Config.weight, Control.weight, List.length_cons]
  omega

theorem advance_readSigned {ops : List Operator}
    (h : Config.InBounds tokens ⟨.read level, position, depth, stack⟩)
    (hheight : level.tighter.height < level.height) :
    Advance tokens ⟨.read level, position, depth, stack⟩
      (readSigned tokens ops level position depth stack) := by
  unfold readSigned
  split
  · rename_i hsign
    exact advance_enter h (Nat.lt_succ_self position) (lt_of_operatorAt? hsign)
  · exact advance_tighten h hheight

theorem advance_readPrimary
    (h : Config.InBounds tokens ⟨.read level, position, depth, stack⟩) :
    Advance tokens ⟨.read level, position, depth, stack⟩
      (readPrimary ending tokens position depth stack) := by
  unfold readPrimary
  split
  · exact advance_settle h trivial (Nat.le_refl _) h.inside
  · rename_i token rest htoken
    have hinside := inside_of_drop htoken
    have hnext : position + 1 ≤ tokens.length := by omega
    have hpassed : position ≤ position + 1 := Nat.le_succ position
    split
    · exact advance_settle h trivial hpassed hnext
    · exact advance_enter h (Nat.lt_succ_self position) hnext
    · exact advance_settle h trivial hpassed hnext
    · split
      · exact advance_settle h trivial hpassed hnext
      · split
        · exact advance_settle h trivial hpassed hnext
        · rename_i opening after
          rw [List.length_cons] at hinside
          split
          · split
            · rename_i close hclose
              have hafter : 0 < after.length := by
                cases after with
                | nil => simp at hclose
                | cons _ _ => simp
              exact advance_settle h trivial (by omega) (by omega)
            · exact advance_enter h (by omega) (by omega)
          · exact advance_settle h trivial hpassed hnext

theorem advance_readLevel (h : Config.InBounds tokens ⟨.read level, position, depth, stack⟩) :
    Advance tokens ⟨.read level, position, depth, stack⟩
      (readLevel ending tokens level position depth stack) := by
  have hchain : ∀ level', Backed (.operand level' depth none :: stack) depth :=
    fun _ => .operand (Nat.le_refl depth) h.backed
  cases level with
  | disjunction | conjunction | sum | product => exact advance_descend h (by decide) (hchain _)
  | comparison => exact advance_descend h (by decide) (.leftSide h.backed)
  | negation | signed => exact advance_readSigned h (by decide)
  | primary => exact advance_readPrimary h

/-! ### Going on behind a result -/

/-- A frame is left with a result. -/
theorem advance_leave
    (h : Config.InBounds tokens ⟨control, position, depth, frame :: stack⟩)
    (hresult : control'.IsResult) (hforward : position ≤ position')
    (hinside : position' ≤ tokens.length) (hdepth : depth' ≤ depth)
    (hbacked : Backed stack depth') :
    Advance tokens ⟨control, position, depth, frame :: stack⟩
      ⟨control', position', depth', stack⟩ := by
  have hlimited : depth ≤ depthLimit := h.limited
  refine ⟨⟨hresult.ne_underflow, hinside, Nat.le_trans hdepth hlimited, hbacked⟩, hforward, ?_⟩
  simp only [Config.weight, hresult.weight_eq, List.length_cons]
  omega

/-- Behind a token that was passed, more is read in the place of the frame. -/
theorem advance_onward (hpassed : position < tokens.length)
    (hlimited : depth' ≤ depthLimit) (hbacked : Backed (frame' :: stack) depth') :
    Advance tokens ⟨control, position, depth, frame :: stack⟩
      ⟨.read inner, position + 1, depth', frame' :: stack⟩ := by
  have hheight := inner.height_le
  refine ⟨⟨by simp, hpassed, hlimited, hbacked⟩, Nat.le_succ position, ?_⟩
  simp only [Config.weight, List.length_cons]
  simp only [Control.weight]
  omega

/-- A level that is given back was taken. -/
theorem advance_giveBack {nesting : Nesting} {next : Nat → Config}
    (h : Config.InBounds tokens ⟨control, position, depth, .nested nesting :: stack⟩)
    (hnext : ∀ d, d ≤ depth → Backed stack d →
      Advance tokens ⟨control, position, depth, .nested nesting :: stack⟩ (next d)) :
    Advance tokens ⟨control, position, depth, .nested nesting :: stack⟩
      (giveBack position depth stack next) := by
  obtain ⟨-, -, -, hbacked⟩ := h
  cases hbacked with
  | nested below => exact hnext _ (Nat.le_succ _) below

theorem advance_resumeChain {base : Nat} {front : Option (Expr × Operator)} {left : Expr}
    (h : Config.InBounds tokens ⟨control, position, depth, .operand level base front :: stack⟩) :
    Advance tokens ⟨control, position, depth, .operand level base front :: stack⟩
      (resumeChain tokens level base left position depth stack) := by
  have hlimited : depth ≤ depthLimit := h.limited
  obtain ⟨hbase, hbelow⟩ : base ≤ depth ∧ Backed stack base := by
    obtain ⟨-, -, -, hbacked⟩ := h
    cases hbacked with
    | operand within below => exact ⟨within, below⟩
  unfold resumeChain
  split
  · exact advance_leave h trivial (Nat.le_refl _) h.inside hbase hbelow
  · rename_i op span hop
    have hpassed := lt_of_operatorAt? hop
    split
    · exact advance_leave h trivial (Nat.le_succ _) hpassed (Nat.le_refl _) (hbelow.mono hbase)
    · rename_i hroom
      split
      · exact advance_onward hpassed hlimited (.operand hbase hbelow)
      · rename_i hswitch
        have hdeeper : depth + 1 ≤ depthLimit := by
          simp only [hswitch, Bool.not_false, Bool.true_and, decide_eq_true_eq] at hroom
          omega
        exact advance_onward hpassed hdeeper (.operand (Nat.le_succ_of_le hbase) hbelow)

theorem advance_resumeNested {nesting : Nesting}
    (h : Config.InBounds tokens ⟨control, position, depth, .nested nesting :: stack⟩) :
    Advance tokens ⟨control, position, depth, .nested nesting :: stack⟩
      (resumeNested ending tokens tree nesting position depth stack) := by
  have hsame : position ≤ position := Nat.le_refl position
  have hnext : position ≤ position + 1 := Nat.le_succ position
  have hinside : position ≤ tokens.length := h.inside
  cases nesting with
  | sign op span =>
      exact advance_giveBack h fun d hd below => advance_leave h trivial hsame hinside hd below
  | group opening =>
      refine advance_giveBack h fun d hd below => ?_
      split
      · exact advance_leave h trivial hsame hinside hd below
      · rename_i token rest htoken
        have hlength := inside_of_drop htoken
        split
        · exact advance_leave h trivial hnext (by omega) hd below
        · exact advance_leave h trivial hsame hinside hd below
  | arguments name before =>
      rw [resumeNested]
      split
      · rename_i hcomma
        have hbacked : Backed (.nested (.arguments name before) :: stack) depth := h.backed
        cases hbacked with
        | nested below =>
            exact advance_onward (lt_of_operatorAt? hcomma) h.limited (.nested below)
      · refine advance_giveBack h fun d hd below => ?_
        split
        · exact advance_leave h trivial hsame hinside hd below
        · rename_i token rest htoken
          have hlength := inside_of_drop htoken
          split
          · exact advance_leave h trivial hnext (by omega) hd below
          · exact advance_leave h trivial hnext (by omega) hd below

theorem advance_resume
    (h : Config.InBounds tokens ⟨control, position, depth, frame :: stack⟩) :
    Advance tokens ⟨control, position, depth, frame :: stack⟩
      (resume ending tokens tree frame position depth stack) := by
  have hsame : position ≤ position := Nat.le_refl position
  have hdepth : depth ≤ depth := Nat.le_refl depth
  have hinside : position ≤ tokens.length := h.inside
  have hlimited : depth ≤ depthLimit := h.limited
  have hbacked : Backed (frame :: stack) depth := h.backed
  cases hbacked with
  | operand => exact advance_resumeChain h
  | nested => exact advance_resumeNested h
  | leftSide below =>
      rw [resume]
      split
      · exact advance_leave h trivial hsame hinside hdepth below
      · rename_i hop
        exact advance_onward (lt_of_operatorAt? hop) hlimited (.rightSide below)
  | rightSide below => exact advance_leave h trivial hsame hinside hdepth below
  | formula below =>
      rw [resume]
      split
      · exact advance_leave h trivial hsame hinside hdepth below
      · exact advance_leave h trivial hsame hinside hdepth below

theorem advance_abandon {error : ParseError}
    (h : Config.InBounds tokens ⟨control, position, depth, frame :: stack⟩) :
    Advance tokens ⟨control, position, depth, frame :: stack⟩
      (abandon error frame position depth stack) := by
  have hleave : ∀ d, d ≤ depth → Backed stack d →
      Advance tokens ⟨control, position, depth, frame :: stack⟩
        ⟨.failed error, position, d, stack⟩ :=
    fun d hd below => advance_leave h trivial (Nat.le_refl _) h.inside hd below
  have hbacked : Backed (frame :: stack) depth := h.backed
  cases hbacked with
  | operand within below => exact hleave depth (Nat.le_refl _) (below.mono within)
  | nested => exact advance_giveBack h hleave
  | leftSide below | rightSide below | formula below => exact hleave depth (Nat.le_refl _) below

/-- **One step.**  Within bounds, a step that is left to do keeps the bounds, never goes back,
and makes the configuration lighter. -/
theorem advance_next (h : c.InBounds tokens) (hlive : ¬ c.Halted) :
    Advance tokens c (c.next ending tokens) := by
  obtain ⟨control, position, depth, stack⟩ := c
  cases control with
  | read level => exact advance_readLevel h
  | underflow => exact absurd rfl h.noUnderflow
  | found tree =>
      cases stack with
      | nil => exact absurd ⟨trivial, rfl⟩ hlive
      | cons frame stack => exact advance_resume h
  | failed error =>
      cases stack with
      | nil => exact absurd ⟨trivial, rfl⟩ hlive
      | cons frame stack => exact advance_abandon h

/-! ### What every run keeps -/

theorem Config.Halted.next_eq (h : c.Halted) : c.next ending tokens = c := by
  obtain ⟨control, position, depth, stack⟩ := c
  obtain ⟨hresult, rfl : stack = []⟩ := h
  cases control with
  | read level => exact hresult.elim
  | underflow => exact hresult.elim
  | found tree => rfl
  | failed error => rfl

theorem Config.Halted.run_eq (h : c.Halted) (n : Nat) : (next ending tokens)^[n] c = c :=
  Function.iterate_fixed h.next_eq n

theorem inBounds_next (h : c.InBounds tokens) : (c.next ending tokens).InBounds tokens := by
  by_cases hhalted : c.Halted
  · rwa [hhalted.next_eq]
  · exact (advance_next h hhalted).bounds

/-- **The bounds hold at every moment.** -/
theorem inBounds_run (h : c.InBounds tokens) (n : Nat) :
    ((Config.next ending tokens)^[n] c).InBounds tokens := by
  induction n generalizing c with
  | zero => exact h
  | succ n ih => exact ih (inBounds_next h)

theorem position_le_run (h : c.InBounds tokens) (n : Nat) :
    c.position ≤ ((Config.next ending tokens)^[n] c).position := by
  induction n generalizing c with
  | zero => exact Nat.le_refl _
  | succ n ih =>
      have hfirst : c.position ≤ (c.next ending tokens).position := by
        by_cases hhalted : c.Halted
        · exact Nat.le_of_eq (congrArg Config.position hhalted.next_eq.symm)
        · exact (advance_next h hhalted).forward
      exact Nat.le_trans hfirst (ih (inBounds_next h))

/-- **Every run ends.**  A configuration takes no more steps than it weighs. -/
theorem halted_run (h : c.InBounds tokens) {n : Nat} (hn : c.weight tokens ≤ n) :
    ((Config.next ending tokens)^[n] c).Halted := by
  induction n generalizing c with
  | zero =>
      by_contra hlive
      have hlighter : (c.next ending tokens).weight tokens < c.weight tokens :=
        (advance_next h hlive).lighter
      omega
  | succ n ih =>
      by_cases hhalted : c.Halted
      · rwa [hhalted.run_eq]
      · have hlighter : (c.next ending tokens).weight tokens < c.weight tokens :=
          (advance_next h hhalted).lighter
        exact ih (inBounds_next h) (by omega)

end QueryFormula.Grammar
