import QueryFormula.Proofs.Places.Reading
import QueryFormula.Proofs.Places.Resolution
import QueryFormula.Proofs.Resolution.Aggregation

/-!
# Errors point into the source

The nodes of a parsed tree have their origins one inside the other, and all of them are
ranges of tokens (`Expr.WellPlaced`).  Whatever a formula is refused for has a place in its
source, and what resolution finds has a range of tokens; a name that means nothing is
reported where it stands (`errors_in_source`).
-/

namespace QueryFormula

namespace Expr

/-- The nodes directly below a node. -/
def children : Expr → List Expr
  | clause _ xs _ => xs
  | options es _ => es.map Prod.snd
  | pairs ps _ => ps.flatMap fun p => [p.1, p.2]
  | _ => []

/-- The node was read from a range of tokens, and what is below it from places inside that
range, from left to right and without overlap. -/
structure WellPlaced (tokens : List Token) (e : Expr) : Prop where
  range : ∃ span, e.origin = some span ∧ IsRange tokens span
  inside : ∀ span, e.origin = some span → ∀ x ∈ e.children, x.LiesIn span
  apart : e.children.Pairwise Precedes

/-- Every node of a nested tree is well placed. -/
theorem Nested.wellPlaced {tokens : List Token} {e : Expr} (h : Nested tokens e) :
    ∀ node ∈ e.nodes, node.WellPlaced tokens := by
  have hleaf : ∀ {x : Expr}, Nested tokens x → x.children = [] → x.WellPlaced tokens := by
    intro x hx hchildren
    refine ⟨hx.exists_range, ?_, ?_⟩
    · rw [hchildren]
      exact fun _ _ _ hy => absurd hy List.not_mem_nil
    · rw [hchildren]
      exact .nil
  induction h with
  | literal reflexive place =>
      exact List.forall_mem_singleton.mpr (hleaf (.literal reflexive place) rfl)
  | name writes place => exact List.forall_mem_singleton.mpr (hleaf (.name writes place) rfl)
  | clause place _ inside apart ih =>
      rw [nodes, nodesOfAll_eq_flatMap]
      refine List.forall_mem_cons.mpr ⟨⟨⟨_, rfl, place⟩, ?_, apart⟩, List.forall_mem_flatMap.mpr ih⟩
      rintro _ ⟨⟩
      exact inside

end Expr

/-! ### Places in the source -/

section Source

variable {source : String} {span : Span}

theorem isBoundary_byteLength (text : List Char) : IsBoundary text (byteLength text) :=
  ⟨text, [], (List.append_nil text).symm, rfl⟩

/-- The end of a source lies in it. -/
theorem isIn_endSpan (text : List Char) : (Grammar.endSpan (byteLength text)).IsIn text :=
  ⟨Nat.le_refl _, isBoundary_byteLength text, isBoundary_byteLength text⟩

theorem isIn_of_mem_tokenize {token : Token} (h : token ∈ (tokenize source).tokens) :
    token.span.IsIn source.toList :=
  ((Cursor.tokens_tile 0 source.toList [] rfl).covers token h).isIn

/-- A range of tokens lies in the source. -/
theorem IsRange.isIn (h : IsRange (tokenize source).tokens span) : span.IsIn source.toList := by
  obtain ⟨first, hfirst, last, hlast, rfl, hlt⟩ := h
  exact ⟨Nat.le_of_lt hlt, (isIn_of_mem_tokenize hfirst).start_boundary,
    (isIn_of_mem_tokenize hlast).stop_boundary⟩

end Source

/-! ### Each stage -/

/-- The error is reported at the span, which lies in the source.  Resolution reports ranges
of tokens, and a name that means nothing where it is written. -/
structure CompileError.PointsAt (source : String) (error : CompileError) (span : Span) :
    Prop where
  reported : error.span = some span
  inside : span.IsIn source.toList
  range : ∀ e, error = .resolution e → IsRange (tokenize source).tokens span
  name : ∀ e, error = .resolution e → e.isUnknownName = true →
    ∃ name, e.unknownName? = some name ∧ IsName (tokenize source).tokens name span

section Stages

variable {source : String}

theorem pointsAt_lex {e : LexError} (h : (tokenize source).error = some e) :
    CompileError.PointsAt source (.lex e) e.span := by
  have htiles := Cursor.tokens_tile 0 source.toList [] rfl
  refine ⟨rfl, (htiles.error e h).1, ?_, ?_⟩
  · rintro _ ⟨⟩
  · rintro _ ⟨⟩

theorem pointsAt_parse {e : ParseError}
    (h : e.Placed (tokenize source).tokens (byteLength source.toList)) :
    CompileError.PointsAt source (.parse e) e.span := by
  have hinside : e.span.IsIn source.toList := by
    unfold ParseError.Placed at h
    split at h
    · rw [h]
      exact isIn_endSpan _
    · obtain ⟨token, htoken, hspan⟩ := h
      rw [hspan]
      exact isIn_of_mem_tokenize htoken
  refine ⟨rfl, hinside, ?_, ?_⟩
  · rintro _ ⟨⟩
  · rintro _ ⟨⟩

theorem pointsAt_resolution {e : ResolutionError} (h : e.Placed (tokenize source).tokens) :
    ∃ span, CompileError.PointsAt source (.resolution e) span := by
  obtain ⟨span, hspan, hrange, hname⟩ := h
  refine ⟨span, hspan, hrange.isIn, ?_, ?_⟩
  · rintro _ ⟨⟩
    exact hrange
  · rintro _ ⟨⟩ hunknown
    rw [← e.isSome_unknownName?] at hunknown
    obtain ⟨name, hsome⟩ := Option.isSome_iff_exists.mp hunknown
    exact ⟨name, hsome, hname name hsome⟩

/-- A parsed tree is read from the tokens of its source. -/
theorem nested_of_readTree {tree : Expr} (h : readTree source = .ok tree) :
    tree.Nested (tokenize source).tokens :=
  nested_of_parse (laid_tokenize source) (readTree_eq_ok_iff.mp h).2

/-- What a source is resolved to has its places among the tokens, and so has an error. -/
theorem yields_contextResolve {σ : Type} [Lookup σ] (context : Context σ) {tree : Expr}
    (h : readTree source = .ok tree) :
    YieldsPlaced (tokenize source).tokens (context.resolve tree) :=
  yields_resolve (bindsPlaced_bind context _) (nested_of_readTree h).placed.normalForm _

theorem pointsAt_of_readTree_error {error : CompileError} (h : readTree source = .error error) :
    ∃ span, error.PointsAt source span := by
  unfold readTree at h
  dsimp only at h
  cases hlex : (tokenize source).error with
  | some e =>
      rw [hlex] at h
      cases h
      exact ⟨e.span, pointsAt_lex hlex⟩
  | none =>
      have hnowhere : Relocation := ⟨id, id, monotone_id, monotone_id⟩
      rw [hlex] at h
      rcases parse_relocate hnowhere source source (tokenize source).tokens with
        ⟨tree, hparse, -⟩ | ⟨e, hparse, hplaced, -⟩
      · rw [hparse] at h
        cases h
      · rw [hparse] at h
        cases h
        exact ⟨e.span, pointsAt_parse hplaced⟩

end Stages

/-- **Errors point into the source**, and origins are nested.  Every node of a parsed tree
is a range of tokens with what is below it inside, from left to right; every error of a
compilation has its place in the source. -/
theorem errors_in_source (source : String) :
    (∀ tree, readTree source = .ok tree →
      ∀ node ∈ tree.nodes, node.WellPlaced (tokenize source).tokens) ∧
    ∀ (σ : Type) [Lookup σ] (context : Context σ) error,
      compile context source = .error error → ∃ span, error.PointsAt source span := by
  refine ⟨fun tree hread => (nested_of_readTree hread).wellPlaced,
    fun σ _ context error h => ?_⟩
  cases hread : readTree source with
  | error e =>
      rw [compile, hread] at h
      cases h
      exact pointsAt_of_readTree_error hread
  | ok tree =>
      have hyields := yields_contextResolve context hread
      rw [compile_of_readTree hread] at h
      generalize context.resolve tree = result at h hyields
      cases result with
      | ok bound => cases h
      | error e =>
          cases h
          exact pointsAt_resolution hyields

/-- A sum with a typo in its second name. -/
def misspelledSum : String :=
  "Sum([Total] + [Totl])"

/-- The typo is reported where it is, brackets included. -/
theorem errors_in_source_typo :
    (∃ tree, readTree misspelledSum = .ok tree ∧
      ∀ node ∈ tree.nodes, node.WellPlaced (tokenize misspelledSum).tokens) ∧
    compile ordersAggregation misspelledSum =
      .error (.resolution (.unknownField "Totl" (some ⟨14, 20⟩))) ∧
    CompileError.PointsAt misspelledSum (.resolution (.unknownField "Totl" (some ⟨14, 20⟩)))
      ⟨14, 20⟩ := by
  obtain ⟨tree, hread, -⟩ := exists_ok_of_any
    (show (readTree misspelledSum).toOption.any (fun _ => true) = true by decide +kernel)
  have hrefused : compile ordersAggregation misspelledSum =
      .error (.resolution (.unknownField "Totl" (some ⟨14, 20⟩))) :=
    error?_eq_some_iff.mp (by decide +kernel)
  obtain ⟨horigins, herrors⟩ := errors_in_source misspelledSum
  obtain ⟨span, hpoints⟩ := herrors _ _ _ hrefused
  cases Option.some.inj hpoints.reported
  exact ⟨⟨tree, hread, horigins tree hread⟩, hrefused, hpoints⟩

end QueryFormula
