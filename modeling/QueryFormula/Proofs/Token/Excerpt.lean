import QueryFormula.Proofs.Token.Alone
import QueryFormula.Proofs.Token.Concatenation
import QueryFormula.Proofs.Token.Tiling

/-!
# Scanning an excerpt

Some tokens of a source that stand one behind the other, cut out of it with the blanks
between them, are the tokens of the excerpt (`tokenize_excerpt`): nothing in front of a token
tells what it is, and what stands behind it can be cut off (`scan_truncated`).
-/

namespace QueryFormula

/-! ### The text over a span -/

/-- A text is cut in one way behind so many bytes. -/
theorem append_inj_of_byteLength {front back front' back' : List Char}
    (h : front ++ back = front' ++ back') (hbytes : byteLength front = byteLength front') :
    front = front' ∧ back = back' := by
  rcases List.append_eq_append_iff.mp h with ⟨extra, rfl, hback⟩ | ⟨extra, rfl, hback⟩
  · rw [byteLength_append] at hbytes
    obtain rfl : extra = [] := eq_nil_of_byteLength_eq_zero (by omega)
    exact ⟨(List.append_nil _).symm, hback⟩
  · rw [byteLength_append] at hbytes
    obtain rfl : extra = [] := eq_nil_of_byteLength_eq_zero (by omega)
    exact ⟨List.append_nil _, hback.symm⟩

/-- A span is over one text. -/
theorem Span.Covers.unique {text covered other : List Char} {span : Span}
    (h : span.Covers text covered) (h' : span.Covers text other) : covered = other := by
  obtain ⟨before, after, rfl, rfl⟩ := h
  obtain ⟨before', after', happend, hspan⟩ := h'
  obtain ⟨hstart, hstop⟩ := Span.mk.inj hspan
  obtain ⟨rfl, hrest⟩ := append_inj_of_byteLength happend hstart
  exact (append_inj_of_byteLength hrest (Nat.add_left_cancel hstop)).1

/-! ### The first and the last token -/

/-- The span runs from the first of the tokens to the last. -/
def IsExtent (tokens : List Token) (span : Span) : Prop :=
  ∃ first ∈ tokens.head?, ∃ last ∈ tokens.getLast?, span = ⟨first.span.start, last.span.stop⟩

/-- Where the tokens end, or a place if there are none. -/
def stopBehind (place : Nat) : List Token → Nat
  | [] => place
  | token :: tokens => stopBehind token.span.stop tokens

theorem stopBehind_of_getLast? {tokens : List Token} {last : Token}
    (h : tokens.getLast? = some last) (place : Nat) :
    stopBehind place tokens = last.span.stop := by
  induction tokens generalizing place with
  | nil => cases h
  | cons token tokens ih =>
      cases tokens with
      | nil =>
          cases h
          rfl
      | cons next tokens => exact ih (List.getLast?_cons_cons.symm.trans h) token.span.stop

namespace Cursor

variable {offset : Nat} {cs : List Char}

/-- **Where a token comes from**: behind blanks a lexeme is scanned, and the other tokens are
scanned from behind it. -/
theorem tokens_eq_cons {token : Token} {others : List Token}
    (h : (⟨offset, cs⟩ : Cursor).tokens.tokens = token :: others) :
    ∃ blank c tail text rest kind, cs = blank ++ c :: tail ∧ AreBlank blank ∧
      isBlank c = false ∧ scan c tail = .token kind text rest ∧
      token = lexedToken kind text (offset + byteLength blank) ∧
      (⟨offset + byteLength blank + byteLength text, rest⟩ : Cursor).tokens.tokens = others := by
  obtain ⟨blank, behind, rfl, hblank, hhead⟩ := exists_blanks cs
  cases behind with
  | nil =>
      rw [List.append_nil, tokens_of_next_none (next_blank offset hblank)] at h
      cases h
  | cons c tail =>
      have hc : isBlank c = false := hhead c rfl
      cases hscan : scan c tail with
      | token kind text rest =>
          rw [tokens_of_next_token (next_token offset hblank hc hscan)] at h
          obtain ⟨htoken, hothers⟩ := List.cons.inj h
          exact ⟨blank, c, tail, text, rest, kind, rfl, hblank, hc, hscan, htoken.symm, hothers⟩
      | refused fault covered passed rest =>
          rw [tokens_of_next_error (next_refused offset hblank hc hscan)] at h
          cases h

/-- **From a token on**: the text from where it begins holds the tokens from it on. -/
theorem tokens_from {front : List Token} {first : Token} {others : List Token}
    (h : (⟨offset, cs⟩ : Cursor).tokens.tokens = front ++ first :: others) :
    ∃ before after, cs = before ++ after ∧ first.span.start = offset + byteLength before ∧
      (⟨offset + byteLength before, after⟩ : Cursor).tokens.tokens = first :: others := by
  induction front generalizing offset cs with
  | nil =>
      obtain ⟨blank, c, tail, text, rest, kind, rfl, hblank, -, -, rfl, -⟩ := tokens_eq_cons h
      refine ⟨blank, c :: tail, rfl, rfl, ?_⟩
      rw [← tokens_congr (next_append offset hblank (c :: tail))]
      exact h
  | cons token front ih =>
      obtain ⟨blank, c, tail, text, rest, kind, rfl, -, -, hscan, -, hothers⟩ := tokens_eq_cons h
      obtain ⟨before, after, rfl, hstart, htokens⟩ := ih hothers
      refine ⟨blank ++ (text ++ before), after, ?_, ?_, ?_⟩
      · rw [List.append_assoc, List.append_assoc, (scan_token_append hscan).1]
      · rw [hstart, byteLength_append, byteLength_append]
        omega
      · rw [byteLength_append, byteLength_append, ← Nat.add_assoc, ← Nat.add_assoc]
        exact htokens

/-- **Up to a token**: the text up to where it ends holds the tokens up to it. -/
theorem tokens_upTo {front back : List Token}
    (h : (⟨offset, cs⟩ : Cursor).tokens.tokens = front ++ back) :
    ∃ run after, cs = run ++ after ∧ Scans offset run front ∧
      stopBehind offset front = offset + byteLength run := by
  induction front generalizing offset cs with
  | nil =>
      have hnothing : AreBlank [] := fun _ hc => absurd hc List.not_mem_nil
      exact ⟨[], cs, rfl, .done hnothing, rfl⟩
  | cons token front ih =>
      obtain ⟨blank, c, tail, text, rest, kind, rfl, hblank, hc, hscan, rfl, hothers⟩ :=
        tokens_eq_cons h
      obtain ⟨run, after, rfl, hscans, hstop⟩ := ih hothers
      obtain ⟨happend, hne⟩ := scan_token_append hscan
      obtain ⟨inner, rfl⟩ : ∃ inner, text = c :: inner := by
        cases text with
        | nil => exact absurd rfl hne
        | cons d inner => exact ⟨inner, by rw [(List.cons.inj happend).1]⟩
      have htail : inner ++ run ++ after = tail := by
        rw [List.append_assoc]
        exact (List.cons.inj happend).2
      rw [← htail] at hscan ⊢
      refine ⟨blank ++ c :: (inner ++ run), after, ?_,
        .token hblank hc (scan_truncated hscan) hscans, ?_⟩
      · simp only [List.append_assoc, List.cons_append]
      · rw [stopBehind]
        refine hstop.trans ?_
        simp only [byteLength_append, byteLength_cons]
        omega

end Cursor

/-- **An excerpt** of a source, from the beginning of a token to the end of the same or a
later one, has no fault and the tokens that are in it. -/
theorem tokenize_excerpt {source : String} {front middle back : List Token} {span : Span}
    (h : (tokenize source).tokens = front ++ (middle ++ back)) (hspan : IsExtent middle span) :
    ∃ excerpt : String, span.Covers source.toList excerpt.toList ∧
      (tokenize excerpt).error = none ∧
      (tokenize excerpt).tokens.map (Token.shift span.start) = middle := by
  obtain ⟨first, hfirst, last, hlast, rfl⟩ := hspan
  obtain ⟨others, rfl⟩ := List.head?_eq_some_iff.mp hfirst
  obtain ⟨before, behind, hbefore, hstart, htokens⟩ := Cursor.tokens_from h
  rw [Nat.zero_add] at hstart htokens
  have hupTo : (⟨byteLength before, behind⟩ : Cursor).tokens.tokens =
      (first :: others) ++ back := htokens
  obtain ⟨run, after, rfl, hscans, hstop⟩ := Cursor.tokens_upTo hupTo
  rw [stopBehind_of_getLast? hlast] at hstop
  have hchars : (String.ofList run).toList = run := String.toList_ofList
  refine ⟨String.ofList run, ⟨before, after, ?_, ?_⟩, ?_⟩
  · rw [hchars]
    exact hbefore
  · rw [hchars, hstart, hstop]
  · have hshift := Cursor.tokens_shift (byteLength before) 0 run
    rw [Nat.zero_add, hscans.tokens_eq] at hshift
    have htokenize : tokenize (String.ofList run) = (⟨0, run⟩ : Cursor).tokens := by
      rw [tokenize, Cursor.ofText, hchars]
    rw [htokenize, hstart]
    refine ⟨?_, (congrArg Scanned.tokens hshift).symm⟩
    exact Option.map_eq_none_iff.mp (congrArg Scanned.error hshift).symm

end QueryFormula
