import QueryFormula.Proofs.Grammar.RawTree
import QueryFormula.Proofs.Places.Laid

/-!
# Origins are nested

Every node of a parsed tree is read from a range of tokens.  The operands of a clause are
read from ranges inside that of the clause, from left to right and without overlap
(`Expr.Nested`); what a phrase stands for is read from the tokens of the phrase
(`Phrase.nested_tree`).
-/

namespace QueryFormula

namespace Expr

/-- The node was read from within the span. -/
def LiesIn (span : Span) (e : Expr) : Prop :=
  ∃ inner, e.origin = some inner ∧ span.start ≤ inner.start ∧ inner.stop ≤ span.stop

/-- The first node was read from in front of the second. -/
def Precedes (e later : Expr) : Prop :=
  ∃ span other, e.origin = some span ∧ later.origin = some other ∧ span.stop ≤ other.start

/-- The tree was read from some tokens: each node from a range of them, each name from a
name, and the operands of a clause one behind the other inside the range of the clause. -/
inductive Nested (tokens : List Token) : Expr → Prop
  | literal {value : Literal} {span : Span} (reflexive : value.IsReflexive)
      (place : IsRange tokens span) : Nested tokens (.literal value (some span))
  | name {name : String} {span : Span} (writes : IsName tokens name span)
      (place : IsRange tokens span) : Nested tokens (.reference .dimension name (some span))
  | clause {op : String} {xs : List Expr} {span : Span} (place : IsRange tokens span)
      (operands : ∀ x ∈ xs, Nested tokens x) (inside : ∀ x ∈ xs, x.LiesIn span)
      (apart : xs.Pairwise Precedes) : Nested tokens (.clause op xs (some span))

namespace Nested

variable {tokens front back : List Token} {e left right : Expr}

theorem exists_range (h : Nested tokens e) :
    ∃ span, e.origin = some span ∧ IsRange tokens span := by
  cases h with
  | literal _ place => exact ⟨_, rfl, place⟩
  | name _ place => exact ⟨_, rfl, place⟩
  | clause place _ _ _ => exact ⟨_, rfl, place⟩

theorem mono (h : Nested front e) (hsub : front ⊆ tokens) : Nested tokens e := by
  induction h with
  | literal reflexive place => exact .literal reflexive (place.mono hsub)
  | name writes place => exact .name (writes.mono hsub) (place.mono hsub)
  | clause place _ inside apart ih => exact .clause (place.mono hsub) ih inside apart

theorem precedes (h : Nested front left) (h' : Nested back right) (hbefore : Before front back) :
    left.Precedes right := by
  obtain ⟨span, hspan, hrange⟩ := h.exists_range
  obtain ⟨other, hother, hrange'⟩ := h'.exists_range
  exact ⟨span, other, hspan, hother, hrange.stop_le_start hrange' hbefore⟩

end Nested

end Expr

open QueryFormula.Expr

namespace Grammar

variable {tokens front back : List Token} {left right : Expr}

/-- A clause of two operands lies from the beginning of the first to the end of the second. -/
theorem nested_binary (op : Operator) (hleft : Nested front left) (hright : Nested back right)
    (hbefore : Before front back) (hfront : front ⊆ tokens) (hback : back ⊆ tokens) :
    Nested tokens (binary left op right) := by
  obtain ⟨span, hspan, hrange⟩ := hleft.exists_range
  obtain ⟨other, hother, hrange'⟩ := hright.exists_range
  have hcover := hrange.cover_eq hrange' hbefore
  have hbetween := hrange.stop_le_start hrange' hbefore
  have hlt := hrange.start_lt_stop
  have hlt' := hrange'.start_lt_stop
  rw [binary, hspan, hother]
  refine .clause (hrange.cover hrange' hbefore hfront hback) ?_ ?_ ?_
  · exact List.forall_mem_cons.mpr
      ⟨hleft.mono hfront, List.forall_mem_singleton.mpr (hright.mono hback)⟩
  · rw [hcover]
    refine List.forall_mem_cons.mpr ⟨⟨span, hspan, ?_⟩,
      List.forall_mem_singleton.mpr ⟨other, hother, ?_⟩⟩ <;> dsimp only <;> omega
  · exact List.pairwise_pair.mpr (hleft.precedes hright hbefore)

/-- What a chain gets lies behind what it has. -/
theorem nested_appendOperand (op : Operator) (hleft : Nested front left)
    (hright : Nested back right) (hbefore : Before front back) (hfront : front ⊆ tokens)
    (hback : back ⊆ tokens) : Nested tokens (appendOperand left op right) := by
  unfold appendOperand
  split
  · rename_i name xs o
    split
    · obtain ⟨other, hother, hrange'⟩ := hright.exists_range
      cases hleft with
      | @clause _ _ span place operands inside apart =>
          have hcover := place.cover_eq hrange' hbefore
          have hbetween := place.stop_le_start hrange' hbefore
          have hlt := place.start_lt_stop
          have hlt' := hrange'.start_lt_stop
          rw [hother]
          refine .clause (place.cover hrange' hbefore hfront hback) ?_ ?_ ?_
          · exact List.forall_mem_append.mpr ⟨fun x hx => (operands x hx).mono hfront,
              List.forall_mem_singleton.mpr (hright.mono hback)⟩
          · rw [hcover]
            refine List.forall_mem_append.mpr ⟨fun x hx => ?_,
              List.forall_mem_singleton.mpr ⟨other, hother, ?_⟩⟩
            · obtain ⟨inner, hinner, hstart, hstop⟩ := inside x hx
              refine ⟨inner, hinner, hstart, ?_⟩
              dsimp only
              omega
            · dsimp only
              omega
          · refine List.pairwise_append.mpr ⟨apart, List.pairwise_singleton _ _, ?_⟩
            intro x hx y hy
            obtain rfl := List.mem_singleton.mp hy
            exact (operands x hx).precedes hright hbefore
    · exact nested_binary op hleft hright hbefore hfront hback
  · exact nested_binary op hleft hright hbefore hfront hback

/-- A sign lies in front of its operand. -/
theorem nested_unary (op : Operator) {sign : Token} (h : Laid (sign :: back))
    (hoperand : Nested back right) : Nested (sign :: back) (unary op sign.span right) := by
  obtain ⟨span, hspan, hrange⟩ := hoperand.exists_range
  have hsign : IsRange [sign] sign.span := h.isRange_head
  have hbefore : Before [sign] back := Laid.before h
  have hback : back ⊆ sign :: back := List.subset_cons_self _ _
  have hplace := hsign.cover hrange hbefore (by simp) hback
  have hcover := hsign.cover_eq hrange hbefore
  have hbetween := hsign.stop_le_start hrange hbefore
  have hlt := hsign.start_lt_stop
  have horigin : signOrigin sign.span right = some (sign.span.cover span) := by
    rw [signOrigin, hspan, Option.getD_some]
  unfold unary
  dsimp only
  rw [horigin]
  split
  · exact .literal (Literal.isReflexive_number _) hplace
  · cases hoperand with
    | literal reflexive _ => exact .literal reflexive.negate hplace
  · refine .clause hplace (List.forall_mem_singleton.mpr (hoperand.mono hback)) ?_
      (List.pairwise_singleton _ _)
    rw [hcover]
    refine List.forall_mem_singleton.mpr ⟨span, hspan, ?_⟩
    dsimp only
    omega

/-- A call lies from its name to its closing parenthesis, and its arguments between them. -/
theorem nested_call {name closing : Token} (middle : List Token) {xs : List Expr}
    (h : Laid (name :: (middle ++ [closing]))) (hxs : ∀ x ∈ xs, Nested middle x)
    (hapart : xs.Pairwise Precedes) :
    Nested (name :: (middle ++ [closing])) (call name xs closing.span) := by
  have hname : IsRange [name] name.span := h.isRange_head
  have hclosing : IsRange [closing] closing.span := h.tail.right.isRange List.mem_cons_self
  have hbefore : Before [name] (middle ++ [closing]) := Laid.before h
  have hfront : Before [name] middle := fun t ht u hu => hbefore t ht u (by simp [hu])
  have hends : Before [name] [closing] := fun t ht u hu => hbefore t ht u (by simp_all)
  have hbehind : Before middle [closing] := h.tail.before
  have hcover := hname.cover_eq hclosing hends
  have hlt := hname.start_lt_stop
  have hlt' := hclosing.start_lt_stop
  refine .clause (hname.cover hclosing hends (by simp) (by simp))
    (fun x hx => (hxs x hx).mono (by simp)) ?_ hapart
  rw [hcover]
  intro x hx
  obtain ⟨span, hspan, hrange⟩ := (hxs x hx).exists_range
  have hafter := hname.stop_le_start hrange hfront
  have hbetween := hrange.stop_le_start hclosing hbehind
  refine ⟨span, hspan, ?_⟩
  dsimp only
  omega

mutual

/-- **What a phrase stands for** is read from its tokens. -/
theorem Phrase.nested_tree {level : Level} : (phrase : Phrase level) → Laid phrase.tokens →
    Nested phrase.tokens phrase.tree
  | .literal token value is, h =>
      .literal (h.reflexive token List.mem_cons_self value is) (h.isRange List.mem_cons_self)
  | .name token is, h =>
      .name ⟨token, List.mem_cons_self, is, rfl, rfl⟩ (h.isRange List.mem_cons_self)
  | .emptyCall frame, h =>
      nested_call [frame.opening.token] h (fun _ hx => absurd hx List.not_mem_nil) .nil
  | .call frame list, h => by
      have hlist : Laid list.tokens := h.tail.tail.left
      obtain ⟨hxs, hapart⟩ := list.nested_trees hlist
      exact nested_call (frame.opening.token :: list.tokens) h
        (fun x hx => (hxs x hx).mono (List.subset_cons_self _ _)) hapart
  | .group opening inner closing, h => by
      have hinner : Laid inner.tokens := h.tail.left
      exact (inner.nested_tree hinner).mono (by simp [Phrase.tokens])
  | .signed sign operand, h =>
      nested_unary sign.op h (operand.nested_tree h.tail)
  | .negated sign operand, h =>
      nested_unary sign.op h (operand.nested_tree h.tail)
  | .compared left sign right, h => by
      have hbefore : Before left.tokens (sign.token :: right.tokens) := Laid.before h
      exact nested_binary sign.op (left.nested_tree h.left) (right.nested_tree h.right.tail)
        (fun t ht u hu => hbefore t ht u (List.mem_cons_of_mem _ hu)) (by simp [Phrase.tokens])
        (by simp [Phrase.tokens])
  | .chain _ first links, h => links.nested_extend (first.nested_tree h.left) h

theorem Links.nested_extend {level : Level} {front : List Token} {left : Expr}
    (hleft : Nested front left) : (links : Links level) → Laid (front ++ links.tokens) →
    Nested (front ++ links.tokens) (links.extend left)
  | .nil, _ => by
      rw [Links.tokens, List.append_nil]
      exact hleft
  | .cons sign operand links, h => by
      have hoperand : Laid operand.tokens := h.right.tail.left
      have hbefore : Before front (sign.token :: (operand.tokens ++ links.tokens)) := Laid.before h
      have hjoined : Nested (front ++ sign.token :: operand.tokens)
          (appendOperand left sign.op operand.tree) :=
        nested_appendOperand sign.op hleft (operand.nested_tree hoperand)
          (fun t ht u hu => hbefore t ht u (by simp [hu])) (by simp) (by simp)
      have hassoc : front ++ (Links.cons sign operand links).tokens =
          (front ++ sign.token :: operand.tokens) ++ links.tokens := by
        simp [Links.tokens]
      rw [hassoc] at h ⊢
      exact links.nested_extend hjoined h

theorem Arguments.nested_trees : (list : Arguments) → Laid list.tokens →
    (∀ x ∈ list.trees, Nested list.tokens x) ∧ list.trees.Pairwise Precedes
  | .last argument, h =>
      ⟨List.forall_mem_singleton.mpr (argument.nested_tree h), List.pairwise_singleton _ _⟩
  | .cons argument comma others, h => by
      have hargument := argument.nested_tree h.left
      obtain ⟨hothers, hapart⟩ := others.nested_trees h.right.tail
      have hbefore : Before argument.tokens (comma.token :: others.tokens) := Laid.before h
      refine ⟨List.forall_mem_cons.mpr ⟨hargument.mono ?_, fun x hx => (hothers x hx).mono ?_⟩,
        List.pairwise_cons.mpr ⟨fun x hx => hargument.precedes (hothers x hx) ?_, hapart⟩⟩
      · simp [Arguments.tokens]
      · simp [Arguments.tokens]
      · exact fun t ht u hu => hbefore t ht u (List.mem_cons_of_mem _ hu)

end

end Grammar

/-- **What is parsed** is read from the tokens. -/
theorem nested_of_parse {source : String} {tokens : List Token} {tree : Expr}
    (hlaid : Laid tokens) (h : parse source tokens = .ok tree) : tree.Nested tokens := by
  obtain ⟨phrase, rfl, rfl, -⟩ := exists_phrase_of_parse h
  exact phrase.nested_tree hlaid

end QueryFormula
