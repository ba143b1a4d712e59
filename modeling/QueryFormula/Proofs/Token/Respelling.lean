import QueryFormula.Proofs.Token.LetterCase
import QueryFormula.Proofs.Token.Scans

/-!
# Sources in another spelling

Logical keywords, truth values, numbers and the names of called functions may be written in
any case.  A source is another spelling of a source (`Recased`) if it differs from it in the
case of letters in such tokens only.  It is scanned in step with it, so that the tokens of
the one are those of the other, respelled (`respelled_of_recased`).
-/

namespace QueryFormula

/-! ### Where case does not count -/

/-- The token is a bare name with an opening parenthesis next to it. -/
def Token.isCalled (token : Token) (next : Option Token) : Bool :=
  token.kind = .identifier && !token.isBracketed && next.any (·.isOperator .openParenthesis)

theorem Token.isCalled_iff {token : Token} {next : Option Token} :
    token.isCalled next = true ↔ token.kind = .identifier ∧ token.isBracketed = false ∧
      next.any (·.isOperator .openParenthesis) = true := by
  simp [Token.isCalled, and_assoc]

/-- The case of the letters of the token does not count, where `next` comes behind it.  The
one letter of a number is the mark of its exponent. -/
def Token.ignoresCase (token : Token) (next : Option Token) : Bool :=
  match token.kind with
  | .operator op => op ∈ [.and, .or, .not]
  | .literal (.text _) => false
  | .literal _ => true
  | .identifier => token.isCalled next

/-- The places of the tokens that ignore case. -/
def caselessSpans : List Token → List Span
  | [] => []
  | token :: rest =>
    (if token.ignoresCase rest.head? then [token.span] else []) ++ caselessSpans rest

/-- The byte lies in the span. -/
def Span.covers (span : Span) (offset : Nat) : Bool :=
  span.start ≤ offset && offset < span.stop

/-- Two texts that begin at an offset differ at most in the case of letters in the spans. -/
def recasedFrom (spans : List Span) : Nat → List Char → List Char → Bool
  | _, [], [] => true
  | offset, c :: cs, c' :: cs' =>
    (c = c' || c.toLower = c'.toLower && spans.any (·.covers offset)) &&
      recasedFrom spans (offset + c.utf8Size) cs cs'
  | _, _, _ => false

/-- The second source differs from the first at most in the case of letters in tokens that
ignore case. -/
def Recased (source source' : String) : Prop :=
  recasedFrom (caselessSpans (tokenize source).tokens) 0 source.toList source'.toList = true

instance (source source' : String) : Decidable (Recased source source') :=
  inferInstanceAs (Decidable (_ = true))

section Recased

variable {spans : List Span} {span : Span} {offset : Nat} {as bs cs cs' : List Char}

theorem recasedFrom_cons {c : Char} (h : recasedFrom spans offset (c :: cs) cs' = true) :
    ∃ c' rest, cs' = c' :: rest ∧
      (c = c' ∨ c.toLower = c'.toLower ∧ ∃ span ∈ spans, span.covers offset = true) ∧
      recasedFrom spans (offset + c.utf8Size) cs rest = true := by
  cases cs' with
  | nil => cases h
  | cons c' rest =>
      rw [recasedFrom, Bool.and_eq_true] at h
      exact ⟨c', rest, rfl, by simpa using h.1, h.2⟩

theorem sameLetters_of_recasedFrom (h : recasedFrom spans offset cs cs' = true) :
    SameLetters cs cs' := by
  induction cs generalizing offset cs' with
  | nil =>
      cases cs' with
      | nil => exact .refl []
      | cons c' rest => cases h
  | cons c cs ih =>
      obtain ⟨c', rest, rfl, hc, hrest⟩ := recasedFrom_cons h
      refine SameLetters.cons_iff.mpr ⟨?_, ih hrest⟩
      rcases hc with rfl | ⟨hletter, -⟩
      · rfl
      · exact hletter

theorem recasedFrom_append (h : recasedFrom spans offset (as ++ bs) cs' = true) :
    ∃ as' bs', cs' = as' ++ bs' ∧ recasedFrom spans offset as as' = true ∧
      recasedFrom spans (offset + byteLength as) bs bs' = true := by
  induction as generalizing offset cs' with
  | nil => exact ⟨[], cs', rfl, by rw [recasedFrom], h⟩
  | cons c as ih =>
      obtain ⟨c', rest, rfl, hc, hrest⟩ := recasedFrom_cons h
      obtain ⟨as', bs', rfl, has, hbs⟩ := ih hrest
      refine ⟨c' :: as', bs', rfl, ?_, ?_⟩
      · rw [recasedFrom, has, Bool.and_true]
        simpa using hc
      · rwa [byteLength_cons, ← Nat.add_assoc]

/-- In front of all spans nothing differs. -/
theorem eq_of_recasedFrom (h : recasedFrom spans offset cs cs' = true)
    (hbehind : ∀ span ∈ spans, offset + byteLength cs ≤ span.start) : cs' = cs := by
  induction cs generalizing offset cs' with
  | nil => exact List.length_eq_zero_iff.mp (sameLetters_of_recasedFrom h).length_eq
  | cons c cs ih =>
      obtain ⟨c', rest, rfl, hc, hrest⟩ := recasedFrom_cons h
      have hrest' : rest = cs := by
        refine ih hrest fun span hspan => ?_
        have hstart := hbehind span hspan
        rwa [byteLength_cons, ← Nat.add_assoc] at hstart
      rcases hc with rfl | ⟨-, span, hspan, hcovers⟩
      · rw [hrest']
      · have hstart := hbehind span hspan
        have hpositive := c.utf8Size_pos
        simp only [Span.covers, Bool.and_eq_true, decide_eq_true_eq] at hcovers
        rw [byteLength_cons] at hstart
        omega

/-- A span that has been passed does not matter. -/
theorem recasedFrom_of_passed (hstop : span.stop ≤ offset)
    (h : recasedFrom (span :: spans) offset cs cs' = true) :
    recasedFrom spans offset cs cs' = true := by
  induction cs generalizing offset cs' with
  | nil =>
      cases cs' with
      | nil => rw [recasedFrom]
      | cons c' rest => cases h
  | cons c cs ih =>
      obtain ⟨c', rest, rfl, hc, hrest⟩ := recasedFrom_cons h
      rw [recasedFrom, ih (Nat.le_add_right_of_le hstop) hrest, Bool.and_true]
      have hpassed : span.covers offset = false := by
        simp [Span.covers, Nat.not_lt.mpr hstop]
      simpa [hpassed] using hc

end Recased

/-! ### Tokens in step -/

section Tokens

variable {token : Token} {tokens : List Token} {span : Span} {offset : Nat} {cs : List Char}

theorem mem_caselessSpans_cons :
    span ∈ caselessSpans (token :: tokens) ↔
      (token.ignoresCase tokens.head? = true ∧ span = token.span) ∨
        span ∈ caselessSpans tokens := by
  rw [caselessSpans, List.mem_append]
  split <;> simp_all

/-- The tokens of a text begin behind its blanks. -/
theorem Scans.le_start (h : Scans offset cs tokens) :
    ∀ span ∈ caselessSpans tokens, offset + byteLength (splitBlank cs).1 ≤ span.start := by
  induction h with
  | done => exact fun _ hspan => by cases hspan
  | @token offset blank cs text rest c kind tokens hblank hc _ _ ih =>
      intro span hspan
      rw [splitBlank_cons hblank hc]
      rcases mem_caselessSpans_cons.mp hspan with ⟨-, rfl⟩ | hrest
      · exact Nat.le_refl _
      · have hstart := ih span hrest
        dsimp only
        omega

/-- Where a token stands in another spelling of a text, the other text has its letters, and
the same text unless case does not count. -/
theorem recasedFrom_token {start : Nat} {text rest tail : List Char}
    (hspan : token.span = ⟨start, start + byteLength text⟩)
    (hbehind : ∀ span ∈ caselessSpans tokens, start + byteLength text ≤ span.start)
    (h : recasedFrom (caselessSpans (token :: tokens)) start (text ++ rest) tail = true) :
    ∃ text' rest', tail = text' ++ rest' ∧ SameLetters text text' ∧
      (token.ignoresCase tokens.head? = false → text' = text) ∧
      recasedFrom (caselessSpans tokens) (start + byteLength text) rest rest' = true := by
  obtain ⟨text', rest', rfl, htext, hrest⟩ := recasedFrom_append h
  refine ⟨text', rest', rfl, sameLetters_of_recasedFrom htext, ?_, ?_⟩
  · intro hcase
    rw [caselessSpans, hcase] at htext
    exact eq_of_recasedFrom htext hbehind
  · rw [caselessSpans] at hrest
    split at hrest
    · exact recasedFrom_of_passed (Nat.le_of_eq (congrArg Span.stop hspan)) hrest
    · exact hrest

/-- Strings and names in brackets do not ignore case. -/
theorem ignoresCase_of_opensDelimited {c : Char} {cs text rest : List Char} {kind : TokenClass}
    (hscan : scan c cs = .token kind text rest) (hdelimited : opensDelimited c = true)
    (start : Nat) (next : Option Token) :
    (lexedToken kind text start).ignoresCase next = false := by
  rcases opensDelimited_iff.mp hdelimited with hquote | rfl
  · have hsymbol : symbol? (c :: cs) = none := by
      rcases hquote with rfl | rfl <;> rfl
    rw [scan_of_quote hsymbol hquote, scanString] at hscan
    split at hscan
    · cases hscan
      rfl
    · cases hscan
  · rw [scan_of_bracket, scanBracketed] at hscan
    split at hscan
    · cases hscan
      simp [Token.ignoresCase, Token.isCalled, Token.isBracketed, lexedToken]
    · cases hscan
    · cases hscan

end Tokens

/-- The tokens in another spelling: only where case does not count do their texts differ, in
the case of letters. -/
inductive Respelled : List Token → List Token → Prop
  | nil : Respelled [] []
  | cons {token token' : Token} {rest rest' : List Token} (kind : token'.kind = token.kind)
      (span : token'.span = token.span)
      (letters : SameLetters token.text.toList token'.text.toList)
      (exact : token.ignoresCase rest.head? = false → token' = token)
      (others : Respelled rest rest') : Respelled (token :: rest) (token' :: rest')

/-- **In step.**  Another spelling of a text is scanned to its tokens, respelled. -/
theorem Scans.respelled {offset : Nat} {cs cs' : List Char} {tokens : List Token}
    (h : Scans offset cs tokens)
    (hrecased : recasedFrom (caselessSpans tokens) offset cs cs' = true) :
    ∃ tokens', Scans offset cs' tokens' ∧ Respelled tokens tokens' := by
  induction h generalizing cs' with
  | done hblank =>
      obtain rfl := eq_of_recasedFrom hrecased fun span hspan => by cases hspan
      exact ⟨[], .done hblank, .nil⟩
  | @token offset blank cs text rest c kind tokens hblank hc hscan hrest ih =>
      have hstart := (Scans.token hblank hc hscan hrest).le_start
      rw [splitBlank_cons hblank hc] at hstart
      have hbehind := fun span hspan => Nat.le_of_add_right_le (hrest.le_start span hspan)
      -- all that ignores case lies behind the blanks, so these are the same in both texts
      obtain ⟨blank', tail, rfl, hrecasedBlank, hrecasedTail⟩ := recasedFrom_append hrecased
      obtain rfl : blank' = blank := eq_of_recasedFrom hrecasedBlank hstart
      rw [← (scan_token_append hscan).1] at hrecasedTail
      obtain ⟨text', rest', rfl, hletters, hexact, hrecasedRest⟩ :=
        recasedFrom_token rfl hbehind hrecasedTail
      obtain ⟨tokens', hscans, hrespelled⟩ := ih hrecasedRest
      obtain ⟨c', cs', happend, hletter, hscan'⟩ :=
        scan_respelled hscan hletters (sameLetters_of_recasedFrom hrecasedRest) fun hdelimited =>
          hexact (ignoresCase_of_opensDelimited hscan hdelimited _ _)
      -- letters in both cases take up the same bytes, so the next token begins at one place
      rw [← hletters.byteLength_eq] at hscans
      have hc' := (ignoresCase_isBlank.congr hletter).trans hc
      have hscansAll := Scans.token hblank hc' hscan' hscans
      rw [← happend] at hscansAll
      refine ⟨_, hscansAll, .cons rfl ?_ ?_ ?_ hrespelled⟩
      · simp [lexedToken, hletters.byteLength_eq]
      · simpa [lexedToken] using hletters
      · intro hcase
        rw [hexact hcase]

/-- Another spelling of a source has its tokens, respelled. -/
theorem respelled_of_recased {source source' : String} (h : Recased source source')
    (herror : (tokenize source).error = none) :
    (tokenize source').error = none ∧
      Respelled (tokenize source).tokens (tokenize source').tokens := by
  have hscans : Scans 0 source.toList (tokenize source).tokens := scans_of_error_eq_none herror
  obtain ⟨tokens', hscans', hrespelled⟩ := hscans.respelled h
  rw [scans_iff.mpr hscans']
  exact ⟨rfl, hrespelled⟩

end QueryFormula
