import QueryFormula.Proofs.Grammar.Joining
import QueryFormula.Proofs.Grammar.Parentheses
import QueryFormula.Proofs.Places.Nesting
import QueryFormula.Proofs.Places.Reading
import QueryFormula.Proofs.Token.Excerpt

/-!
# Trees in their parentheses

The origin of a tree runs from the first to the last of its own tokens, its core.  A group
puts parentheses around the core and leaves the tree alone, so what a phrase derives is a
core between opening and closing parentheses (`Enclosed`); and where a tree in parentheses
becomes an operand, the core of the new tree begins or ends inside them.

A core that has partners for all its parentheses has none around it, so it is all that the
phrase derives (`enclosed_of_phrase`): by itself it derives the same tree.  With the nodes
below the root (`Located`) that goes through every rule of the grammar, and through a chain
from its first operand on (`Links.located`).
-/

namespace QueryFormula

open Grammar

/-! ### Extents -/

section Extents

variable {front middle back tokens : List Token} {a b span : Span}

theorem isExtent_singleton (token : Token) : IsExtent [token] token.span :=
  ⟨token, rfl, token, rfl, rfl⟩

/-- The extent of some tokens is one of their ranges. -/
theorem IsExtent.isRange (h : IsExtent tokens span) (hlaid : Laid tokens) :
    IsRange tokens span := by
  obtain ⟨first, hfirst, last, hlast, rfl⟩ := h
  have hmem := List.mem_of_getLast? hlast
  refine ⟨first, List.mem_of_head? hfirst, last, hmem, rfl, ?_⟩
  obtain ⟨others, rfl⟩ := List.head?_eq_some_iff.mp hfirst
  have hlt := hlaid.nonempty first List.mem_cons_self
  rcases List.mem_cons.mp hmem with rfl | hmem
  · exact hlt
  · have hbefore := (List.pairwise_cons.mp hlaid.ordered).1 last hmem
    have hlt' := hlaid.nonempty last (List.mem_cons_of_mem _ hmem)
    dsimp only
    omega

/-- The span around the extents of the first and of the last tokens is the extent of
all. -/
theorem IsExtent.cover (h : IsExtent front a) (h' : IsExtent back b)
    (hlaid : Laid (front ++ (middle ++ back))) :
    IsExtent (front ++ (middle ++ back)) (a.cover b) := by
  have hbefore : Before front back := fun token htoken later hlater =>
    hlaid.before token htoken later (List.mem_append_right middle hlater)
  rw [(h.isRange hlaid.left).cover_eq (h'.isRange hlaid.right.right) hbefore]
  obtain ⟨first, hfirst, _, -, rfl⟩ := h
  obtain ⟨_, -, last, hlast, rfl⟩ := h'
  refine ⟨first, ?_, last, ?_, rfl⟩
  · rw [List.head?_append, Option.mem_def.mp hfirst]
    rfl
  · rw [← List.append_assoc, List.getLast?_append, Option.mem_def.mp hlast]
    rfl

end Extents

/-! ### Any phrase as a formula -/

namespace Grammar

/-- **A phrase of any level is a formula.** -/
theorem Phrase.exists_formula {level : Level} (phrase : Phrase level) :
    ∃ formula : Phrase .disjunction, formula.tokens = phrase.tokens ∧
      formula.tree = phrase.tree ∧ formula.need = phrase.need := by
  have loosen : ∀ {level : Level}, level ≠ .primary →
      (∀ phrase : Phrase level, ∃ formula : Phrase .disjunction,
        formula.tokens = phrase.tokens ∧ formula.tree = phrase.tree ∧
          formula.need = phrase.need) →
      ∀ phrase : Phrase level.tighter, ∃ formula : Phrase .disjunction,
        formula.tokens = phrase.tokens ∧ formula.tree = phrase.tree ∧
          formula.need = phrase.need := by
    intro level above looser phrase
    obtain ⟨formula, htokens, htree, hneed⟩ := looser (.chain above phrase .nil)
    exact ⟨formula, htokens.trans (List.append_nil _), htree, hneed.trans (Nat.max_zero _)⟩
  have hconjunction := loosen disjunction_ne_primary fun phrase => ⟨phrase, rfl, rfl, rfl⟩
  have hnegation := loosen (by decide) hconjunction
  have hcomparison := loosen (by decide) hnegation
  have hsum := loosen (by decide) hcomparison
  have hproduct := loosen (by decide) hsum
  have hsigned := loosen (by decide) hproduct
  have hprimary := loosen signed_ne_primary hsigned
  cases level with
  | disjunction => exact ⟨phrase, rfl, rfl, rfl⟩
  | conjunction => exact hconjunction phrase
  | negation => exact hnegation phrase
  | comparison => exact hcomparison phrase
  | sum => exact hsum phrase
  | product => exact hproduct phrase
  | signed => exact hsigned phrase
  | primary => exact hprimary phrase

end Grammar

/-! ### Cores -/

/-- The origin of the tree runs over the tokens, and if they have partners for all their
parentheses, they derive the tree within the limit. -/
structure IsCore (limit : Nat) (core : List Token) (e : Expr) : Prop where
  place : ∃ span, e.origin = some span ∧ IsExtent core span
  formula : ParenthesesMatch core → ∃ phrase : Phrase .disjunction,
    phrase.tokens = core ∧ phrase.tree = e ∧ phrase.need ≤ limit

/-- The tokens are those of the tree and parentheses around them. -/
def Enclosed (limit : Nat) (tokens : List Token) (e : Expr) : Prop :=
  ∃ opens core closes, tokens = opens ++ (core ++ closes) ∧ AreOpening opens ∧
    AreClosing closes ∧ IsCore limit core e

/-- The tokens of the tree are among the tokens. -/
def ReadWithin (limit : Nat) (tokens : List Token) (e : Expr) : Prop :=
  ∃ front core back, tokens = front ++ (core ++ back) ∧ IsCore limit core e

/-- The tree stands in its parentheses, and its nodes are read within them. -/
structure Located (limit : Nat) (tokens : List Token) (e : Expr) : Prop where
  enclosed : Enclosed limit tokens e
  nodes : ∀ x ∈ e.nodes, ReadWithin limit tokens x

section Cores

variable {limit limit' : Nat} {tokens : List Token} {e : Expr}

theorem IsCore.mono (h : IsCore limit tokens e) (hlimit : limit ≤ limit') :
    IsCore limit' tokens e := by
  refine ⟨h.place, fun hmatch => ?_⟩
  obtain ⟨phrase, htokens, htree, hneed⟩ := h.formula hmatch
  exact ⟨phrase, htokens, htree, Nat.le_trans hneed hlimit⟩

theorem ReadWithin.mono (h : ReadWithin limit tokens e) (hlimit : limit ≤ limit') :
    ReadWithin limit' tokens e := by
  obtain ⟨front, core, back, htokens, hcore⟩ := h
  exact ⟨front, core, back, htokens, hcore.mono hlimit⟩

theorem ReadWithin.before (h : ReadWithin limit tokens e) (later : List Token) :
    ReadWithin limit (tokens ++ later) e := by
  obtain ⟨front, core, back, rfl, hcore⟩ := h
  exact ⟨front, core, back ++ later, by simp only [List.append_assoc], hcore⟩

theorem ReadWithin.behind (h : ReadWithin limit tokens e) (earlier : List Token) :
    ReadWithin limit (earlier ++ tokens) e := by
  obtain ⟨front, core, back, rfl, hcore⟩ := h
  exact ⟨earlier ++ front, core, back, by simp only [List.append_assoc], hcore⟩

theorem Enclosed.readWithin (h : Enclosed limit tokens e) : ReadWithin limit tokens e := by
  obtain ⟨opens, core, closes, htokens, -, -, hcore⟩ := h
  exact ⟨opens, core, closes, htokens, hcore⟩

/-- A group is one pair of parentheses more. -/
theorem Located.group (h : Located limit tokens e) (hlimit : limit ≤ limit')
    (opening : OperatorToken [.openParenthesis]) (closing : OperatorToken [.closeParenthesis]) :
    Located limit' (opening.token :: (tokens ++ [closing.token])) e := by
  constructor
  case enclosed =>
      obtain ⟨opens, core, closes, rfl, hopens, hcloses, hcore⟩ := h.enclosed
      refine ⟨opening.token :: opens, core, closes ++ [closing.token], ?_, ?_, ?_,
        hcore.mono hlimit⟩
      · simp only [List.append_assoc, List.cons_append]
      · exact List.forall_mem_cons.mpr ⟨opening.operator_single, hopens⟩
      · exact List.forall_mem_append.mpr
          ⟨hcloses, List.forall_mem_singleton.mpr closing.operator_single⟩
  case nodes =>
      exact fun x hx =>
        (((h.nodes x hx).before [closing.token]).behind [opening.token]).mono hlimit

end Cores

/-- **Cores of phrases.**  Some tokens that a phrase derives between parentheses are its
core, if in front of them, together with the first of them, all parentheses have partners
already. -/
theorem enclosed_of_phrase {level : Level} (phrase : Phrase level)
    {opens first others closes : List Token}
    (htokens : phrase.tokens = opens ++ ((first ++ others) ++ closes))
    (hopens : AreOpening opens) (hcloses : AreClosing closes)
    (hfirst : ParenthesesMatch (opens ++ first))
    (hplace : ∃ span, phrase.tree.origin = some span ∧ IsExtent (first ++ others) span) :
    Enclosed phrase.need phrase.tokens phrase.tree := by
  refine ⟨opens, first ++ others, closes, htokens, hopens, hcloses, hplace, fun hmatch => ?_⟩
  have hwhole : ParenthesesMatch phrase.tokens := phrase.openBehind?_tokens 0
  have hparts := hmatch
  rw [ParenthesesMatch, openBehind?_append] at hparts
  obtain ⟨found, hfound, -⟩ := Option.bind_eq_some_iff.mp hparts
  obtain rfl := eq_nil_of_opened hopens hfirst hfound
  rw [List.nil_append] at htokens
  rw [htokens] at hwhole
  obtain rfl := eq_nil_of_closed hcloses hwhole hmatch
  rw [List.append_nil] at htokens
  obtain ⟨formula, hformula, htree, hneed⟩ := phrase.exists_formula
  exact ⟨formula, hformula.trans htokens, htree, Nat.le_of_eq hneed⟩

/-! ### The rules -/

namespace Grammar

theorem mem_nodes_binary {left right x : Expr} {op : Operator}
    (h : x ∈ (binary left op right).nodes) :
    x = binary left op right ∨ x ∈ left.nodes ∨ x ∈ right.nodes := by
  simpa [binary, Expr.nodes, Expr.nodesOfAll] using h

/-- Joining an operand adds one node, and may take one away. -/
theorem mem_nodes_appendOperand {left right x : Expr} {op : Operator}
    (h : x ∈ (appendOperand left op right).nodes) :
    x = appendOperand left op right ∨ x ∈ left.nodes ∨ x ∈ right.nodes := by
  cases hchain : isChainOf left op with
  | true =>
      obtain ⟨xs, o, rfl, hlength⟩ := isChainOf_iff.mp hchain
      rw [appendOperand_of_chain hlength] at h ⊢
      simp only [Expr.nodes, Expr.nodesOfAll_eq_flatMap, List.mem_cons, List.flatMap_append,
        List.flatMap_singleton, List.mem_append] at h ⊢
      rcases h with h | h | h
      · exact .inl h
      · exact .inr (.inl (.inr h))
      · exact .inr (.inr h)
  | false =>
      rw [appendOperand_of_not_chain hchain] at h ⊢
      exact mem_nodes_binary h

/-- A sign adds one node, or replaces a number. -/
theorem mem_nodes_unary {operand x : Expr} {op : Operator} {sign : Span}
    (h : x ∈ (unary op sign operand).nodes) :
    x = unary op sign operand ∨ x ∈ operand.nodes := by
  revert h
  fun_cases unary op sign operand with
  | case1 | case2 => exact fun h => .inl (List.mem_singleton.mp h)
  | case3 =>
      intro h
      simpa [Expr.nodes, Expr.nodesOfAll] using h

theorem origin_unary (op : Operator) (sign : Span) (operand : Expr) :
    (unary op sign operand).origin = signOrigin sign operand := by
  unfold unary
  dsimp only
  split <;> rfl

theorem origin_appendOperand (left right : Expr) (op : Operator) :
    (appendOperand left op right).origin = Span.cover? left.origin right.origin := by
  cases hchain : isChainOf left op with
  | true =>
      obtain ⟨xs, o, rfl, hlength⟩ := isChainOf_iff.mp hchain
      rw [appendOperand_of_chain hlength]
      rfl
  | false =>
      rw [appendOperand_of_not_chain hchain]
      rfl

end Grammar

/-- What the phrase stands for is in its parentheses. -/
def Grammar.Phrase.IsLocated {level : Level} (phrase : Phrase level) : Prop :=
  Located phrase.need phrase.tokens phrase.tree

section Rules

variable {limit limit' : Nat} {level : Level} {phrase : Phrase level}

/-- Nothing is below the root but what is read within the tokens. -/
theorem Enclosed.located {tokens : List Token} {e : Expr} (h : Enclosed limit tokens e)
    (hnodes : ∀ x ∈ e.nodes, x = e ∨ ReadWithin limit tokens x) : Located limit tokens e := by
  refine ⟨h, fun x hx => ?_⟩
  rcases hnodes x hx with rfl | hx
  · exact h.readWithin
  · exact hx

/-- A tree with all tokens of a phrase for its own: a constant, a name or a call. -/
theorem located_whole {span : Span} (horigin : phrase.tree.origin = some span)
    (hspan : IsExtent phrase.tokens span)
    (hnodes : ∀ x ∈ phrase.tree.nodes,
      x = phrase.tree ∨ ReadWithin phrase.need phrase.tokens x) :
    phrase.IsLocated := by
  have hall : phrase.tokens ++ [] = phrase.tokens := List.append_nil _
  have hparts : phrase.tokens = [] ++ ((phrase.tokens ++ []) ++ []) := by
    rw [hall, hall, List.nil_append]
  have henclosed : Enclosed phrase.need phrase.tokens phrase.tree :=
    enclosed_of_phrase phrase hparts (fun _ h => absurd h List.not_mem_nil)
      (fun _ h => absurd h List.not_mem_nil) (phrase.openBehind?_tokens 0)
      ⟨span, horigin, hall.symm ▸ hspan⟩
  exact henclosed.located hnodes

/-- A call lies from its name to its closing parenthesis. -/
theorem located_call {name closing : Token} (middle : List Token) {xs : List Expr}
    (htokens : phrase.tokens = [name] ++ (middle ++ [closing]))
    (htree : phrase.tree = call name xs closing.span) (hlimit : limit ≤ phrase.need)
    (hlaid : Laid phrase.tokens) (hxs : ∀ x ∈ Expr.nodesOfAll xs, ReadWithin limit middle x) :
    phrase.IsLocated := by
  have hspan : IsExtent phrase.tokens (name.span.cover closing.span) := by
    rw [htokens] at hlaid ⊢
    exact (isExtent_singleton name).cover (isExtent_singleton closing) hlaid
  refine located_whole ?_ hspan fun x hx => ?_
  · rw [htree, call, Expr.origin]
  · rw [htree, call, Expr.nodes, List.mem_cons] at hx
    rw [htree, htokens]
    exact hx.imp_right fun hx => (((hxs x hx).before [closing]).behind [name]).mono hlimit

/-- **A sign and its operand.** -/
theorem located_sign {operand : Expr} {op : Operator} {sign : Token} {tokens : List Token}
    (htokens : phrase.tokens = sign :: tokens)
    (htree : phrase.tree = unary op sign.span operand) (hlimit : limit ≤ phrase.need)
    (hlaid : Laid (sign :: tokens)) (hoperand : Located limit tokens operand) :
    phrase.IsLocated := by
  have henclosed : Enclosed phrase.need phrase.tokens phrase.tree := by
    obtain ⟨opens, core, closes, rfl, -, hcloses, ⟨span, hspan, hextent⟩, -⟩ := hoperand.enclosed
    have hparts : sign :: (opens ++ (core ++ closes)) =
        [] ++ (([] ++ (sign :: (opens ++ core))) ++ closes) := by
      simp only [List.nil_append, List.append_assoc, List.cons_append]
    have hplace : Laid ([sign] ++ (opens ++ core)) := by
      rw [hparts, List.nil_append] at hlaid
      exact hlaid.left
    refine enclosed_of_phrase phrase (htokens.trans hparts)
      (fun token h => absurd h List.not_mem_nil) hcloses rfl ⟨sign.span.cover span, ?_, ?_⟩
    · rw [htree, origin_unary, signOrigin, hspan, Option.getD_some]
    · exact (isExtent_singleton sign).cover hextent hplace
  refine henclosed.located fun x hx => ?_
  rw [htree] at hx ⊢
  refine (mem_nodes_unary hx).imp_right fun hx => ?_
  rw [htokens]
  exact ((hoperand.nodes x hx).behind [sign]).mono hlimit

/-- **Two operands and what joins them.** -/
theorem located_join {left right : Expr} {sign : Token} {front back : List Token}
    (htokens : phrase.tokens = front ++ sign :: back)
    (horigin : phrase.tree.origin = Span.cover? left.origin right.origin)
    (hnodes : ∀ x ∈ phrase.tree.nodes,
      x = phrase.tree ∨ x ∈ left.nodes ∨ x ∈ right.nodes)
    (hlimit : limit ≤ phrase.need) (hlimit' : limit' ≤ phrase.need)
    (hlaid : Laid (front ++ sign :: back)) (hfront : ParenthesesMatch front)
    (hleft : Located limit front left) (hright : Located limit' back right) :
    phrase.IsLocated := by
  have henclosed : Enclosed phrase.need phrase.tokens phrase.tree := by
    obtain ⟨opens, core, closes, rfl, hopens, -, ⟨a, ha, hextent⟩, -⟩ := hleft.enclosed
    obtain ⟨opens', core', closes', rfl, -, hcloses', ⟨b, hb, hextent'⟩, -⟩ := hright.enclosed
    have hparts : opens ++ (core ++ closes) ++ sign :: (opens' ++ (core' ++ closes')) =
        opens ++ ((core ++ closes ++ sign :: (opens' ++ core')) ++ closes') := by
      simp only [List.append_assoc, List.cons_append]
    have hcore : core ++ closes ++ sign :: (opens' ++ core') =
        core ++ ((closes ++ sign :: opens') ++ core') := by
      simp only [List.append_assoc, List.cons_append]
    have hplace := hlaid
    rw [hparts, hcore] at hplace
    refine enclosed_of_phrase phrase (htokens.trans hparts) hopens hcloses' hfront
      ⟨a.cover b, ?_, ?_⟩
    · rw [horigin, ha, hb]
      rfl
    · rw [hcore]
      exact hextent.cover hextent' hplace.right.left
  refine henclosed.located fun x hx => (hnodes x hx).imp_right fun hx => ?_
  rw [htokens]
  rcases hx with hx | hx
  · exact ((hleft.nodes x hx).before (sign :: back)).mono hlimit
  · exact (((hright.nodes x hx).behind [sign]).behind front).mono hlimit'

end Rules

/-! ### Phrases -/

namespace Grammar

section Append

variable {level : Level} {sign : OperatorToken level.joiners} {operand : Phrase level.tighter}

/-- Some links and others behind them. -/
def Links.append : Links level → Links level → Links level
  | .nil, others => others
  | .cons sign operand links, others => .cons sign operand (links.append others)

theorem Links.append_nil : {level : Level} → (links : Links level) → links.append .nil = links
  | _, .nil => rfl
  | _, .cons sign operand links => congrArg (Links.cons sign operand) links.append_nil

theorem Links.append_assoc : (links middle others : Links level) →
    (links.append middle).append others = links.append (middle.append others)
  | .nil, _, _ => rfl
  | .cons sign operand links, middle, others =>
      congrArg (Links.cons sign operand) (links.append_assoc middle others)

theorem Links.tokens_append : (links others : Links level) →
    (links.append others).tokens = links.tokens ++ others.tokens
  | .nil, _ => rfl
  | .cons sign operand links, others => by
      simp only [Links.append, Links.tokens, links.tokens_append others, List.cons_append,
        List.append_assoc]

theorem Links.extend_append (left : Expr) : (links others : Links level) →
    (links.append others).extend left = others.extend (links.extend left)
  | .nil, _ => rfl
  | .cons _ _ links, others => links.extend_append _ others

/-- Links behind others take nothing away from what these need. -/
theorem Links.need_le_append (left : Expr) (switches : Nat) : (links others : Links level) →
    links.need left switches ≤ (links.append others).need left switches
  | .nil, _ => Nat.zero_le _
  | .cons _ _ links, others => max_le_max (Nat.le_refl _) (links.need_le_append _ _ others)

/-- The last operand needs no more than the links. -/
theorem Links.need_last_le : (links : Links level) → (left : Expr) → (switches : Nat) →
    operand.need ≤ (links.append (.cons sign operand .nil)).need left switches
  | .nil, _, _ => Nat.le_trans (Nat.le_add_left _ _) (Nat.le_max_left _ _)
  | .cons _ _ links, _, _ => Nat.le_trans (links.need_last_le _ _) (Nat.le_max_right _ _)

/-- **One operand more** at the end of a chain. -/
theorem isLocated_chain {above : level ≠ .primary} {first : Phrase level.tighter}
    {done : Links level}
    (h : Laid (Phrase.chain above first (done.append (.cons sign operand .nil))).tokens)
    (hdone : (Phrase.chain above first done).IsLocated)
    (hoperand : Laid operand.tokens → operand.IsLocated) :
    (Phrase.chain above first (done.append (.cons sign operand .nil))).IsLocated := by
  have htokens : (Phrase.chain above first (done.append (.cons sign operand .nil))).tokens =
      (Phrase.chain above first done).tokens ++ sign.token :: operand.tokens := by
    simp only [Phrase.tokens, Links.tokens_append, Links.tokens, List.append_nil,
      List.append_assoc]
  have htree : (Phrase.chain above first (done.append (.cons sign operand .nil))).tree =
      appendOperand (Phrase.chain above first done).tree sign.op operand.tree := by
    rw [Phrase.tree, Links.extend_append]
    rfl
  rw [htokens] at h
  refine located_join htokens ?_ ?_ ?_ ?_ h ?_ hdone (hoperand h.right.tail)
  · rw [htree, origin_appendOperand]
  · rw [htree]
    exact fun _ => mem_nodes_appendOperand
  · exact max_le_max (Nat.le_refl _) (done.need_le_append _ _ _)
  · exact Nat.le_trans (done.need_last_le _ _) (Nat.le_max_right _ _)
  · exact (Phrase.chain above first done).openBehind?_tokens 0

end Append

mutual

/-- **What a phrase stands for** is in its parentheses. -/
theorem Phrase.located {level : Level} : (phrase : Phrase level) → Laid phrase.tokens →
    phrase.IsLocated
  | .literal token value is, _ =>
      located_whole rfl (isExtent_singleton token) fun _ hx => .inl (List.mem_singleton.mp hx)
  | .name token is, _ =>
      located_whole rfl (isExtent_singleton token) fun _ hx => .inl (List.mem_singleton.mp hx)
  | .emptyCall frame, h =>
      located_call [frame.opening.token] rfl rfl (Nat.le_refl 0) h
        fun _ hx => absurd hx List.not_mem_nil
  | .call frame list, h =>
      located_call (frame.opening.token :: list.tokens) rfl rfl (Nat.le_add_left _ _) h
        fun x hx => (list.located h.tail.tail.left x hx).behind [frame.opening.token]
  | .group opening inner closing, h =>
      (inner.located h.tail.left).group (Nat.le_add_left _ _) opening closing
  | .signed sign operand, h =>
      located_sign rfl rfl (Nat.le_add_left _ _) h (operand.located h.tail)
  | .negated sign operand, h =>
      located_sign rfl rfl (Nat.le_add_left _ _) h (operand.located h.tail)
  | .compared left sign right, h =>
      located_join rfl rfl (fun _ => mem_nodes_binary) (Nat.le_max_left _ _)
        (Nat.le_max_right _ _) h (left.openBehind?_tokens 0) (left.located h.left)
        (right.located h.right.tail)
  | .chain above first links, h => by
      have hfirst : (Phrase.chain above first .nil).IsLocated := by
        rw [Phrase.IsLocated, Phrase.need, Links.need, Nat.max_zero, Phrase.tokens, Links.tokens,
          List.append_nil]
        exact first.located h.left
      exact Links.located above first .nil hfirst links h

/-- A chain grows from its first operand on. -/
theorem Links.located {level : Level} (above : level ≠ .primary) (first : Phrase level.tighter)
    (done : Links level) (hdone : (Phrase.chain above first done).IsLocated) :
    (links : Links level) → Laid (Phrase.chain above first (done.append links)).tokens →
    (Phrase.chain above first (done.append links)).IsLocated
  | .nil, _ => by
      rw [Links.append_nil]
      exact hdone
  | .cons sign operand links, h => by
      have hassoc := done.append_assoc (.cons sign operand .nil) links
      rw [Links.append, Links.append] at hassoc
      rw [← hassoc] at h ⊢
      have hmore : Laid (Phrase.chain above first
          (done.append (.cons sign operand .nil))).tokens := by
        rw [Phrase.tokens, Links.tokens_append, ← List.append_assoc] at h
        exact h.left
      exact Links.located above first _ (isLocated_chain hmore hdone operand.located) links h

/-- The arguments of a call and all below them are read within their tokens. -/
theorem Arguments.located : (list : Arguments) → Laid list.tokens →
    ∀ x ∈ Expr.nodesOfAll list.trees, ReadWithin list.need list.tokens x
  | .last argument, h => by
      rw [Arguments.trees, Expr.nodesOfAll, Expr.nodesOfAll, List.append_nil]
      exact (argument.located h).nodes
  | .cons argument comma others, h => by
      rw [Arguments.trees, Expr.nodesOfAll]
      refine List.forall_mem_append.mpr ⟨fun x hx => ?_, fun x hx => ?_⟩
      · exact (((argument.located h.left).nodes x hx).before _).mono (Nat.le_max_left _ _)
      · exact (((others.located h.right.tail x hx).behind [comma.token]).behind _).mono
          (Nat.le_max_right _ _)

end

end Grammar

end QueryFormula
