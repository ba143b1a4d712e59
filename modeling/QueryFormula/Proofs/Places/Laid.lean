import QueryFormula.Proofs.Expr.Reflexive
import QueryFormula.Proofs.Token.LetterCase
import QueryFormula.Proofs.Token.Tiling

/-!
# Ranges of tokens

The tokens of a source are laid one behind the other (`laid_tokenize`).  A span that begins
where one of them begins and ends where one of them ends is a range (`IsRange`); ranges of
two lists, the one in front of the other, are disjoint, and the span around both is a range
of the whole.
-/

namespace QueryFormula

/-! ### Constants in a source -/

/-- What a numeral is worth is a number. -/
theorem Numeral.isReflexive_of_value? {n : Numeral} {value : Literal} (h : n.value? = some value) :
    value.IsReflexive := by
  unfold Numeral.value? at h
  split at h
  · split at h
    · cases h
      exact Literal.isReflexive_number _
    · split at h
      · rename_i hfinite
        cases h
        rw [Literal.isReflexive_float, Double.isNaN, decide_eq_false_iff_not]
        exact Nat.lt_asymm (of_decide_eq_true hfinite)
      · cases h
  · cases h

theorem isReflexive_of_wordKind {text : List Char} {value : Literal}
    (h : wordKind text = .literal value) : value.IsReflexive := by
  unfold wordKind at h
  split at h <;> cases h
  · exact Literal.isReflexive_boolean true
  · exact Literal.isReflexive_boolean false

theorem isReflexive_of_scan {c : Char} {cs text rest : List Char} {value : Literal}
    (h : scan c cs = .token (.literal value) text rest) : value.IsReflexive := by
  cases scan_eq_token_iff.mp h with
  | string _ _ hlexeme =>
      rw [scanString] at hlexeme
      split at hlexeme <;> cases hlexeme
      exact Literal.isReflexive_text _
  | bracketed _ hlexeme =>
      rw [scanBracketed] at hlexeme
      split at hlexeme <;> cases hlexeme
  | number _ _ _ hlexeme =>
      simp only [scanNumber] at hlexeme
      split at hlexeme <;> cases hlexeme
      rename_i hvalue
      exact Numeral.isReflexive_of_value? hvalue
  | word _ _ _ _ hlexeme =>
      rw [scanWord] at hlexeme
      injection hlexeme with hkind
      exact isReflexive_of_wordKind hkind

/-! ### Lists of tokens -/

/-- Every token lies before those behind it, and a constant equals itself. -/
structure Laid (tokens : List Token) : Prop where
  nonempty : ∀ token ∈ tokens, token.span.start < token.span.stop
  ordered : tokens.Pairwise fun token later => token.span.stop ≤ later.span.start
  reflexive : ∀ token ∈ tokens, ∀ value, token.kind = .literal value → value.IsReflexive

/-- The span begins where a token begins and ends where a token ends. -/
def IsRange (tokens : List Token) (span : Span) : Prop :=
  ∃ first ∈ tokens, ∃ last ∈ tokens,
    span = ⟨first.span.start, last.span.stop⟩ ∧ span.start < span.stop

/-- The first tokens lie before the second. -/
def Before (front back : List Token) : Prop :=
  ∀ token ∈ front, ∀ later ∈ back, token.span.stop ≤ later.span.start

/-- The name that an identifier token writes. -/
def Token.name (token : Token) : String :=
  if token.isBracketed then Bracketed.name token.text else token.text

/-- The span is that of an identifier token that writes the name. -/
def IsName (tokens : List Token) (name : String) (span : Span) : Prop :=
  ∃ token ∈ tokens, token.kind = .identifier ∧ token.name = name ∧ token.span = span

section Ranges

variable {tokens front back : List Token} {span inner : Span}

theorem Laid.sublist (h : Laid tokens) (hsub : front.Sublist tokens) : Laid front :=
  ⟨fun token htoken => h.nonempty token (hsub.subset htoken), h.ordered.sublist hsub,
    fun token htoken => h.reflexive token (hsub.subset htoken)⟩

theorem Laid.left (h : Laid (front ++ back)) : Laid front :=
  h.sublist (List.sublist_append_left front back)

theorem Laid.right (h : Laid (front ++ back)) : Laid back :=
  h.sublist (List.sublist_append_right front back)

theorem Laid.tail {token : Token} (h : Laid (token :: back)) : Laid back :=
  h.sublist (List.sublist_cons_self token back)

theorem Laid.before (h : Laid (front ++ back)) : Before front back :=
  (List.pairwise_append.mp h.ordered).2.2

theorem IsRange.mono (h : IsRange front span) (hsub : front ⊆ tokens) : IsRange tokens span := by
  obtain ⟨first, hfirst, last, hlast, hspan⟩ := h
  exact ⟨first, hsub hfirst, last, hsub hlast, hspan⟩

theorem IsName.mono {name : String} (h : IsName front name span) (hsub : front ⊆ tokens) :
    IsName tokens name span := by
  obtain ⟨token, htoken, hname⟩ := h
  exact ⟨token, hsub htoken, hname⟩

/-- A token is a range by itself. -/
theorem Laid.isRange (h : Laid tokens) {token : Token} (htoken : token ∈ tokens) :
    IsRange tokens token.span :=
  ⟨token, htoken, token, htoken, rfl, h.nonempty token htoken⟩

/-- So is the first token, of those up to it. -/
theorem Laid.isRange_head {token : Token} (h : Laid (token :: back)) :
    IsRange [token] token.span :=
  ⟨token, List.mem_cons_self, token, List.mem_cons_self, rfl, h.nonempty token List.mem_cons_self⟩

theorem IsRange.start_lt_stop (h : IsRange tokens span) : span.start < span.stop := by
  obtain ⟨_, -, _, -, -, hspan⟩ := h
  exact hspan

theorem IsRange.stop_le_start (h : IsRange front span) (h' : IsRange back inner)
    (hbefore : Before front back) : span.stop ≤ inner.start := by
  obtain ⟨_, -, last, hlast, rfl, -⟩ := h
  obtain ⟨first, hfirst, _, -, rfl, -⟩ := h'
  exact hbefore last hlast first hfirst

/-- The span around two ranges begins with the first and ends with the second. -/
theorem IsRange.cover_eq (h : IsRange front span) (h' : IsRange back inner)
    (hbefore : Before front back) : span.cover inner = ⟨span.start, inner.stop⟩ := by
  have hbetween := h.stop_le_start h' hbefore
  obtain ⟨_, -, _, -, -, hspan⟩ := h
  obtain ⟨_, -, _, -, -, hinner⟩ := h'
  rw [Span.cover, Nat.min_eq_left (by omega), Nat.max_eq_right (by omega)]

theorem IsRange.cover (h : IsRange front span) (h' : IsRange back inner)
    (hbefore : Before front back) (hfront : front ⊆ tokens) (hback : back ⊆ tokens) :
    IsRange tokens (span.cover inner) := by
  have hbetween := h.stop_le_start h' hbefore
  rw [h.cover_eq h' hbefore]
  obtain ⟨first, hfirst, _, -, rfl, hspan⟩ := h
  obtain ⟨_, -, last, hlast, rfl, hinner⟩ := h'
  refine ⟨first, hfront hfirst, last, hback hlast, rfl, ?_⟩
  dsimp only at hbetween hspan hinner ⊢
  omega

end Ranges

/-- **The tokens of a source** are laid one behind the other. -/
theorem laid_tokenize (source : String) : Laid (tokenize source).tokens := by
  have htiles := Cursor.tokens_tile 0 source.toList [] rfl
  refine ⟨htiles.nonempty, htiles.ordered, ?_⟩
  refine Cursor.tokens_induct (motive := fun _ _ scanned => ∀ token ∈ scanned.tokens,
    ∀ value, token.kind = .literal value → value.IsReflexive) ?_ ?_ ?_ 0 source.toList
  · exact fun _ _ htoken => absurd htoken List.not_mem_nil
  · exact fun _ _ _ _ htoken => absurd htoken List.not_mem_nil
  · intro offset blank cs text rest c kind others _ _ hscan ih
    refine List.forall_mem_cons.mpr ⟨fun value hkind => ?_, ih⟩
    obtain rfl : kind = .literal value := hkind
    exact isReflexive_of_scan hscan

end QueryFormula
