import QueryFormula.Proofs.Places.Alignment
import QueryFormula.Proofs.Places.Errors

/-!
# Layout does not matter

Two sources whose tokens have the same texts, however they are laid out, compile alike
(`compile_same_texts`): to the same tree, or with the same error at the same tokens.  Every
stage is one on moved tokens, and what compiles equals itself, since no numeral stands for a
double that is no number.
-/

namespace QueryFormula

open QueryFormula.Expr

/-! ### The same places -/

/-- The same error at another place. -/
def CompileError.setSpan (span : Span) : CompileError → CompileError
  | lex e => lex { e with span := span }
  | parse e => parse { e with span := span }
  | resolution e => resolution (e.setSpan (some span))

/-- The first span lies over tokens of the first source and the second over those of the same
numbers in the second; or both are the end of their source. -/
inductive SamePlace (source source' : String) : Span → Span → Prop
  | range {first last first' last' : Token} {i j : Nat} (ordered : i ≤ j)
      (begins : (tokenize source).tokens[i]? = some first)
      (ends : (tokenize source).tokens[j]? = some last)
      (begins' : (tokenize source').tokens[i]? = some first')
      (ends' : (tokenize source').tokens[j]? = some last') :
      SamePlace source source' ⟨first.span.start, last.span.stop⟩
        ⟨first'.span.start, last'.span.stop⟩
  | ending : SamePlace source source' (Grammar.endSpan (byteLength source.toList))
      (Grammar.endSpan (byteLength source'.toList))

/-- Both compile to the same tree, or both are refused for the same reason at the same
place. -/
inductive SameOutcome (source source' : String) :
    Except CompileError Expr → Except CompileError Expr → Prop
  | compiled {e e' : Expr} (same : e.sameTree e' = true) :
      SameOutcome source source' (.ok e) (.ok e')
  | refused {error error' : CompileError} {span span' : Span} (same : error' = error.setSpan span')
      (message : error'.message = error.message) (reported : error.span = some span)
      (reported' : error'.span = some span') (place : SamePlace source source' span span') :
      SameOutcome source source' (.error error) (.error error')

section Moved

variable {source source' : String} {r : Relocation}

/-- A range of tokens is moved to the range of the tokens of the same numbers. -/
theorem IsRange.samePlace
    (hmoved : (tokenize source').tokens = (tokenize source).tokens.map (Token.relocate r))
    {span : Span} (h : IsRange (tokenize source).tokens span) :
    SamePlace source source' span (r.span span) := by
  obtain ⟨first, hfirst, last, hlast, rfl, hlt⟩ := h
  obtain ⟨i, hi, hbegins⟩ := List.mem_iff_getElem.mp hfirst
  obtain ⟨j, hj, hends⟩ := List.mem_iff_getElem.mp hlast
  have hordered : i ≤ j := by
    refine Nat.le_of_not_lt fun hback => ?_
    have hbetween := List.pairwise_iff_getElem.mp (laid_tokenize source).ordered j i hj hi hback
    rw [hbegins, hends] at hbetween
    dsimp only at hlt
    omega
  have hnumber : ∀ {k : Nat} {token : Token} (hk : k < (tokenize source).tokens.length),
      (tokenize source).tokens[k] = token →
      (tokenize source).tokens[k]? = some token ∧
        (tokenize source').tokens[k]? = some (token.relocate r) := by
    rintro k _ hk rfl
    rw [hmoved, List.getElem?_map, List.getElem?_eq_getElem hk]
    exact ⟨rfl, rfl⟩
  exact .range hordered (hnumber hi hbegins).1 (hnumber hj hends).1 (hnumber hi hbegins).2
    (hnumber hj hends).2

theorem sameOutcome_parse
    (hmoved : (tokenize source').tokens = (tokenize source).tokens.map (Token.relocate r))
    {e : ParseError} (h : e.Placed (tokenize source).tokens (byteLength source.toList)) :
    SameOutcome source source' (.error (.parse e))
      (.error (.parse (e.relocate r (byteLength source'.toList)))) := by
  have hplace : SamePlace source source' e.span
      (e.relocate r (byteLength source'.toList)).span := by
    unfold ParseError.Placed at h
    unfold ParseError.relocate
    split at h
    · rename_i hend
      rw [if_pos hend, h]
      exact .ending
    · rename_i hend
      obtain ⟨token, htoken, hspan⟩ := h
      rw [if_neg hend, hspan]
      exact ((laid_tokenize source).isRange htoken).samePlace hmoved
  exact .refused rfl rfl rfl rfl hplace

theorem sameOutcome_resolution
    (hmoved : (tokenize source').tokens = (tokenize source).tokens.map (Token.relocate r))
    {e : ResolutionError} (h : e.Placed (tokenize source).tokens) :
    SameOutcome source source' (.error (.resolution e)) (.error (.resolution (e.relocate r))) := by
  obtain ⟨span, hspan, hrange, -⟩ := h
  have hsame : e.relocate r = e.setSpan (some (r.span span)) := by
    rw [ResolutionError.relocate, hspan, Option.map_some]
  rw [hsame]
  exact .refused rfl (e.message_setSpan _) hspan (e.span_setSpan _) (hrange.samePlace hmoved)

/-- The tree at other places is resolved to the same, there. -/
theorem Context.resolve_relocate {σ : Type} [Lookup σ] (context : Context σ) (r : Relocation) (tree : Expr) :
    context.resolve (tree.relocate r) = r.outcome (Expr.relocate r) (context.resolve tree) := by
  rw [Context.resolve, Context.resolve, normalForm_relocate]
  exact QueryFormula.resolve_relocate (bindsAlike_bind r context) _ _

theorem sameOutcome_tree {σ : Type} [Lookup σ] (context : Context σ)
    (hmoved : (tokenize source').tokens = (tokenize source).tokens.map (Token.relocate r))
    {tree : Expr} (h : readTree source = .ok tree)
    (h' : readTree source' = .ok (tree.relocate r)) :
    SameOutcome source source' (compile context source) (compile context source') := by
  have hyields := yields_contextResolve context h
  rw [compile_of_readTree h, compile_of_readTree h', context.resolve_relocate]
  generalize context.resolve tree = result at hyields
  cases result with
  | error e => exact sameOutcome_resolution hmoved hyields
  | ok bound =>
      have hself : (compareConditions bound).IsReflexive :=
        isReflexive_compareConditions (Expr.Placed.isReflexive hyields)
      have hsame : (compareConditions bound).sameTree (compareConditions (bound.relocate r)) =
          true := by
        rw [compareConditions_relocate, sameTree_relocate]
        exact hself
      exact .compiled hsame

end Moved

/-- **Layout does not matter.**  Two sources that tokenize and whose tokens have the same
texts, one by one, compile to the same tree or are refused for the same reason, at tokens of
the same numbers or at the end of both. -/
theorem compile_same_texts {σ : Type} [Lookup σ] {source source' : String}
    (herror : (tokenize source).error = none) (herror' : (tokenize source').error = none)
    (htexts : (tokenize source).tokens.map Token.text = (tokenize source').tokens.map Token.text)
    (context : Context σ) :
    SameOutcome source source' (compile context source) (compile context source') := by
  obtain ⟨r, hmoved⟩ := exists_relocation htexts
  rcases parse_relocate r source source' (tokenize source).tokens with
    ⟨tree, hparse, hparse'⟩ | ⟨error, hparse, hplaced, hparse'⟩
  · rw [← hmoved] at hparse'
    exact sameOutcome_tree context hmoved (readTree_eq_ok_iff.mpr ⟨herror, hparse⟩)
      (readTree_eq_ok_iff.mpr ⟨herror', hparse'⟩)
  · rw [← hmoved] at hparse'
    rw [compile_of_parse_error herror hparse, compile_of_parse_error herror' hparse']
    exact sameOutcome_parse hmoved hplaced

/-- A formula on one line, with a typo in a name. -/
def tightFormula : String :=
  "Sum([Total]*2+[Totl])"

/-- The same formula over several lines. -/
def spreadFormula : String :=
  "Sum(\n  [Total] * 2\n  + [Totl]\n)"

/-- In both layouts the typo is reported, at the seventh token. -/
theorem compile_same_texts_spread :
    (tokenize tightFormula).error = none ∧ (tokenize spreadFormula).error = none ∧
    (tokenize tightFormula).tokens.map Token.text =
      (tokenize spreadFormula).tokens.map Token.text ∧
    compile ordersAggregation tightFormula =
      .error (.resolution (.unknownField "Totl" (some ⟨14, 20⟩))) ∧
    SameOutcome tightFormula spreadFormula (compile ordersAggregation tightFormula)
      (compile ordersAggregation spreadFormula) := by
  have herror : (tokenize tightFormula).error = none := by
    decide +kernel
  have herror' : (tokenize spreadFormula).error = none := by
    decide +kernel
  have htexts : (tokenize tightFormula).tokens.map Token.text =
      (tokenize spreadFormula).tokens.map Token.text := by
    decide +kernel
  have hrefused : compile ordersAggregation tightFormula =
      .error (.resolution (.unknownField "Totl" (some ⟨14, 20⟩))) :=
    error?_eq_some_iff.mp (by decide +kernel)
  exact ⟨herror, herror', htexts, hrefused,
    compile_same_texts herror herror' htexts ordersAggregation⟩

end QueryFormula
