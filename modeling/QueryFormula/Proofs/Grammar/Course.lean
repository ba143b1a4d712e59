import QueryFormula.Proofs.Grammar.Simulation
import QueryFormula.Proofs.Grammar.Unfinished

/-!
# The course of a call

A call of a parser is a run of configurations, from the place where the parser stands to the
place where the call leaves it (`Parser.StandsIn.call`).  So what holds at every moment of a run
holds at every moment of every call: the depth stays between zero and its limit, the position
between the place where the call began and the end of the tokens, and the call ends.  As each
call leaves the parser standing in its tokens, also with an error, the next one begins in the
same way.
-/

namespace QueryFormula

namespace Grammar

/-- The control at the end of a call. -/
def Control.ofResult : Except ParseError Expr → Control
  | .ok tree => .found tree
  | .error error => .failed error

theorem Control.isResult_ofResult (result : Except ParseError Expr) :
    (ofResult result).IsResult := by
  cases result <;> trivial

end Grammar

open Grammar

namespace Parser

/-- How many of the tokens of its source a parser has read. -/
def position (tokens : List Token) (p : Parser) : Nat :=
  tokens.length - p.rest.length

/-- The configuration in which a call begins. -/
def start (tokens : List Token) (p : Parser) (c : Call) : Config :=
  ⟨.read .disjunction, p.position tokens, p.depth,
    match c with
    | .expression => []
    | .formula => [.formula]⟩

/-- A call in progress, after some steps. -/
def during (tokens : List Token) (p : Parser) (c : Call) (steps : Nat) : Config :=
  (Config.next p.ending tokens)^[steps] (p.start tokens c)

/-- The configuration in which a call ends. -/
def finish (tokens : List Token) (outcome : Except ParseError Expr × Parser) : Config :=
  ⟨.ofResult outcome.1, outcome.2.position tokens, outcome.2.depth, []⟩

/-- A parser that stands at a place in the tokens of its source, at a depth there is. -/
structure StandsIn (tokens : List Token) (p : Parser) : Prop where
  aligned : p.rest = tokens.drop (p.position tokens)
  limited : p.depth ≤ depthLimit

/-- A call keeps the state of a parser sound from its first step to its last. -/
structure RunsSoundly (tokens : List Token) (p : Parser) (c : Call) : Prop where
  /-- What is left are the tokens from the position on. -/
  aligned : p.rest = tokens.drop (p.position tokens)
  /-- The call ends, with its result: after that many steps it stands there for good. -/
  ends : ∀ n, 16 * (p.rest.length + 1) ≤ n → p.during tokens c n = finish tokens (p.call c)
  /-- No level is given back where none is taken. -/
  noUnderflow : ∀ n, (p.during tokens c n).control ≠ .underflow
  depth_le : ∀ n, (p.during tokens c n).depth ≤ depthLimit
  position_le : ∀ n, (p.during tokens c n).position ≤ tokens.length
  forward : ∀ m n, m ≤ n → (p.during tokens c m).position ≤ (p.during tokens c n).position
  /-- A call that succeeds has read something. -/
  consumes : ∀ tree, (p.call c).1 = .ok tree → p.position tokens < (p.call c).2.position tokens

variable {tokens : List Token} {p : Parser} {stack : List Frame}

theorem standsIn_ofSource (source : String) (tokens : List Token) :
    (ofSource source tokens).StandsIn tokens where
  aligned := by simp [ofSource, position]
  limited := Nat.zero_le _

theorem StandsIn.length_le (h : p.StandsIn tokens) : p.rest.length ≤ tokens.length := by
  have hlength := congrArg List.length h.aligned
  rw [List.length_drop] at hlength
  omega

/-- Where a parser stands can be read off what is left to it. -/
theorem standsIn_of_drop {control : Control} {place : Nat} (hrest : tokens.drop place = p.rest)
    (hbounds : Config.InBounds tokens ⟨control, place, p.depth, stack⟩) :
    p.StandsIn tokens ∧ p.position tokens = place := by
  have hinside : place ≤ tokens.length := hbounds.inside
  have hplace : p.position tokens = place := by
    rw [position, ← hrest, List.length_drop]
    omega
  refine ⟨⟨?_, hbounds.limited⟩, hplace⟩
  rw [hplace, hrest]

theorem StandsIn.inBounds (h : p.StandsIn tokens) (hbacked : Backed stack p.depth) :
    Config.InBounds tokens ⟨.read .disjunction, p.position tokens, p.depth, stack⟩ :=
  ⟨by simp, Nat.sub_le _ _, h.limited, hbacked⟩

/-- An expression is read in steps, whatever is to become of it. -/
theorem StandsIn.expression (h : p.StandsIn tokens) (hbacked : Backed stack p.depth) :
    p.expression.2.StandsIn tokens ∧
      Leads p.ending tokens ⟨.read .disjunction, p.position tokens, p.depth, stack⟩
        ⟨.ofResult p.expression.1, p.expression.2.position tokens, p.expression.2.depth,
          stack⟩ := by
  have hbounds := h.inBounds hbacked
  have hsettles := Level.read_settles p.ending tokens .disjunction p.rest p.depth
    (p.position tokens) stack h.aligned.symm hbounds
  unfold Parser.expression
  generalize Level.disjunction.read p.ending p.rest p.depth = result at hsettles
  cases hsettles with
  | @found parsed place hrest hleads =>
      obtain ⟨hstands, hplace⟩ := standsIn_of_drop (p := { p with rest := parsed.rest }) hrest
        (hleads.inBounds hbounds)
      rw [← hplace] at hleads
      exact ⟨hstands, hleads⟩
  | @failed failure place hrest hleads =>
      obtain ⟨hstands, hplace⟩ := standsIn_of_drop
        (p := ⟨p.ending, failure.rest, failure.depth⟩) hrest (hleads.inBounds hbounds)
      rw [← hplace] at hleads
      exact ⟨hstands, hleads⟩

/-- A formula is read in steps. -/
theorem StandsIn.formula (h : p.StandsIn tokens) :
    p.formula.2.StandsIn tokens ∧
      Leads p.ending tokens (p.start tokens .formula) (finish tokens p.formula) := by
  have hbacked : Backed [.formula] p.depth := .formula .nil
  obtain ⟨hstands, hleads⟩ := h.expression hbacked
  unfold Parser.formula
  generalize p.expression = outcome at hstands hleads
  obtain ⟨result, after⟩ := outcome
  cases result with
  | error error => exact ⟨hstands, hleads.trans (.step rfl)⟩
  | ok tree =>
      have haligned : after.rest = tokens.drop (after.position tokens) := hstands.aligned
      have hnext : Config.next p.ending tokens
          ⟨.found tree, after.position tokens, after.depth, [.formula]⟩ =
          resume p.ending tokens tree .formula (after.position tokens) after.depth [] := rfl
      rw [resume, ← haligned] at hnext
      dsimp only
      split
      · rename_i hnil
        rw [hnil] at hnext
        exact ⟨hstands, hleads.trans (.step hnext)⟩
      · rename_i token rest hcons
        rw [hcons] at hnext
        exact ⟨hstands, hleads.trans (.step hnext)⟩

/-- **Agreement.**  A call in steps ends with its result. -/
theorem StandsIn.call (h : p.StandsIn tokens) (c : Call) :
    (p.call c).2.StandsIn tokens ∧
      Leads p.ending tokens (p.start tokens c) (finish tokens (p.call c)) := by
  cases c with
  | expression => exact h.expression .nil
  | formula => exact h.formula

/-- Any calls leave a parser in its tokens. -/
theorem StandsIn.after (h : p.StandsIn tokens) (calls : List Call) :
    (p.after calls).StandsIn tokens := by
  induction calls generalizing p with
  | nil => exact h
  | cons c calls ih => exact ih (h.call c).1

/-- Whether a formula ends where its expression does is all that is left to see. -/
theorem formula_eq_expression (p : Parser) :
    p.formula.2 = p.expression.2 ∧ ∀ tree, p.formula.1 = .ok tree → p.expression.1 = .ok tree := by
  unfold Parser.formula
  generalize p.expression = outcome
  obtain ⟨result, after⟩ := outcome
  cases result with
  | error error => exact ⟨rfl, fun _ h => h⟩
  | ok tree =>
      cases hrest : after.rest with
      | nil => simp [hrest]
      | cons token rest => simp [hrest]

theorem length_rest_expression {tree : Expr} (h : p.expression.1 = .ok tree) :
    p.expression.2.rest.length < p.rest.length := by
  unfold Parser.expression at h ⊢
  cases hread : Level.disjunction.read p.ending p.rest p.depth with
  | ok parsed => exact parsed.shorter
  | error failure => simp [hread] at h

/-- A call that succeeds leaves fewer tokens. -/
theorem length_rest_call {c : Call} {tree : Expr} (h : (p.call c).1 = .ok tree) :
    (p.call c).2.rest.length < p.rest.length := by
  cases c with
  | expression => exact length_rest_expression h
  | formula =>
      obtain ⟨hafter, hresult⟩ := p.formula_eq_expression
      have hless := length_rest_expression (hresult tree h)
      rwa [← hafter] at hless

theorem StandsIn.position_lt_call (h : p.StandsIn tokens) {c : Call} {tree : Expr}
    (hok : (p.call c).1 = .ok tree) : p.position tokens < (p.call c).2.position tokens := by
  have hlength := h.length_le
  have hless := length_rest_call hok
  simp only [position]
  omega

/-! ### Every moment of a call -/

theorem StandsIn.inBounds_start (h : p.StandsIn tokens) (c : Call) :
    (p.start tokens c).InBounds tokens := by
  cases c with
  | expression => exact h.inBounds .nil
  | formula => exact h.inBounds (.formula .nil)

theorem StandsIn.inBounds_during (h : p.StandsIn tokens) (c : Call) (n : Nat) :
    (p.during tokens c n).InBounds tokens :=
  inBounds_run (h.inBounds_start c) n

theorem StandsIn.position_during_le (h : p.StandsIn tokens) (c : Call) {m n : Nat} (hmn : m ≤ n) :
    (p.during tokens c m).position ≤ (p.during tokens c n).position := by
  obtain ⟨k, rfl⟩ := Nat.exists_eq_add_of_le' hmn
  have hlater : (p.during tokens c m).position ≤
      ((Config.next p.ending tokens)^[k] (p.during tokens c m)).position :=
    position_le_run (h.inBounds_during c m) k
  rwa [during, ← Function.iterate_add_apply] at hlater

/-- Sixteen steps for each token that is left, and sixteen more. -/
theorem StandsIn.weight_start_le (h : p.StandsIn tokens) (c : Call) :
    (p.start tokens c).weight tokens ≤ 16 * (p.rest.length + 1) := by
  have hlength := h.length_le
  have hleft : tokens.length - p.position tokens = p.rest.length := by
    rw [position]
    omega
  cases c with
  | expression =>
      simp only [start, Config.weight, hleft, Control.weight, Level.height, List.length_nil]
      omega
  | formula =>
      simp only [start, Config.weight, hleft, Control.weight, Level.height, List.length_cons,
        List.length_nil]
      omega

theorem StandsIn.during_eq_finish (h : p.StandsIn tokens) (c : Call) {n : Nat}
    (hn : 16 * (p.rest.length + 1) ≤ n) : p.during tokens c n = finish tokens (p.call c) := by
  have hhalted : (finish tokens (p.call c)).Halted := ⟨Control.isResult_ofResult _, rfl⟩
  exact (h.call c).2.run_eq (h.inBounds_start c) hhalted (Nat.le_trans (h.weight_start_le c) hn)

/-- **Any use of a parser.**  Behind any calls on a fresh parser of any tokens, also calls that
have failed, every call ends.  At each of its steps the depth is within its limits and the
position within the tokens, no step goes back, and a call that succeeds has gone on. -/
theorem runsSoundly_after (source : String) (tokens : List Token) (calls : List Call)
    (c : Call) : ((ofSource source tokens).after calls).RunsSoundly tokens c := by
  have hstands := (standsIn_ofSource source tokens).after calls
  exact {
    aligned := hstands.aligned
    ends := fun _ hn => hstands.during_eq_finish c hn
    noUnderflow := fun n => (hstands.inBounds_during c n).noUnderflow
    depth_le := fun n => (hstands.inBounds_during c n).limited
    position_le := fun n => (hstands.inBounds_during c n).inside
    forward := fun _ _ hmn => hstands.position_during_le c hmn
    consumes := fun _ hok => hstands.position_lt_call hok }

/-- While a group is read the depth is one; behind it the level is given back. -/
example :
    let tokens := (tokenize "(1)").tokens
    let p := ofSource "(1)" tokens
    (p.during tokens .formula 8).depth = 1 ∧ (p.during tokens .formula 22).depth = 0 ∧
      (p.during tokens .formula 22).position = 3 := by
  decide +kernel

end Parser

end QueryFormula
