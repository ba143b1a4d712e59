import QueryFormula.Proofs.Token.Lookahead
import QueryFormula.Proofs.Token.Scans

/-!
# Scanning a concatenation

A source without a fault can be followed by a blank, a parenthesis or a comma, and then by
anything: its tokens stay as they are, and behind them come the tokens and the fault of the
rest, moved by the length of the source (`tokenize_append`).
-/

namespace QueryFormula

/-! ### Moving what is scanned -/

/-- The span, this many bytes further on. -/
def Span.shift (bytes : Nat) (span : Span) : Span :=
  ⟨span.start + bytes, span.stop + bytes⟩

/-- The token, this many bytes further on. -/
def Token.shift (bytes : Nat) (token : Token) : Token :=
  { token with span := token.span.shift bytes }

/-- The fault, this many bytes further on. -/
def LexError.shift (bytes : Nat) (error : LexError) : LexError :=
  { error with span := error.span.shift bytes }

namespace Scanned

/-- The tokens and the fault, this many bytes further on. -/
def shift (bytes : Nat) (scanned : Scanned) : Scanned :=
  ⟨scanned.tokens.map (Token.shift bytes), scanned.error.map (LexError.shift bytes)⟩

/-- What is scanned, behind some tokens. -/
def behind (tokens : List Token) (scanned : Scanned) : Scanned :=
  ⟨tokens ++ scanned.tokens, scanned.error⟩

end Scanned

theorem lexedToken_shift (kind : TokenClass) (text : List Char) (start bytes : Nat) :
    (lexedToken kind text start).shift bytes = lexedToken kind text (start + bytes) := by
  simp [lexedToken, Token.shift, Span.shift, Nat.add_right_comm]

theorem lexedError_shift (fault : LexFault) (covered : List Char) (start bytes : Nat) :
    (lexedError fault covered start).shift bytes = lexedError fault covered (start + bytes) := by
  simp [lexedError, LexError.shift, Span.shift, Nat.add_right_comm]

namespace Cursor

/-- What is scanned moves with the place from which it is scanned. -/
theorem tokens_shift (bytes offset : Nat) (cs : List Char) :
    (⟨offset + bytes, cs⟩ : Cursor).tokens = (⟨offset, cs⟩ : Cursor).tokens.shift bytes := by
  refine tokens_induct (motive := fun offset cs scanned =>
    (⟨offset + bytes, cs⟩ : Cursor).tokens = scanned.shift bytes) ?_ ?_ ?_ offset cs
  · intro offset blank hblank
    exact tokens_of_next_none (next_blank _ hblank)
  · intro offset blank cs covered passed rest c fault hblank hc hscan
    rw [tokens_of_next_error (next_refused _ hblank hc hscan), Scanned.shift, Option.map_some,
      lexedError_shift, Nat.add_right_comm]
    rfl
  · intro offset blank cs text rest c kind others hblank hc hscan ih
    have hoffset : offset + bytes + byteLength blank + byteLength text =
        offset + byteLength blank + byteLength text + bytes := by omega
    rw [tokens_of_next_token (next_token _ hblank hc hscan), hoffset, ih, Scanned.cons,
      Scanned.shift, Scanned.cons, Scanned.shift, List.map_cons, lexedToken_shift,
      Nat.add_right_comm]

/-! ### Blanks and tokens in front -/

theorem next_append (offset : Nat) {blank : List Char} (hblank : AreBlank blank)
    (cs : List Char) :
    (⟨offset, blank ++ cs⟩ : Cursor).next = (⟨offset + byteLength blank, cs⟩ : Cursor).next := by
  simp only [next, splitBlank_blanks hblank, byteLength_append, Nat.add_assoc]

theorem tokens_congr {cursor cursor' : Cursor} (h : cursor.next = cursor'.next) :
    cursor.tokens = cursor'.tokens := by
  rcases hnext : cursor'.next with ⟨_ | _ | token, after⟩
  · rw [tokens_of_next_error hnext, tokens_of_next_error (h.trans hnext)]
  · rw [tokens_of_next_none hnext, tokens_of_next_none (h.trans hnext)]
  · rw [tokens_of_next_token hnext, tokens_of_next_token (h.trans hnext)]

end Cursor

/-- **A run of signs** is taken one by one, whatever follows it. -/
theorem Cursor.tokens_signs (sign : Char) {op : Operator} (hblank : isBlank sign = false)
    (hscan : ∀ rest, scan sign rest = .token (.operator op) [sign] rest) (count offset : Nat)
    (cs : List Char) :
    ∃ run, run.length = count ∧ (∀ token ∈ run, token.operator? = some op) ∧
      (⟨offset, List.replicate count sign ++ cs⟩ : Cursor).tokens =
        (⟨offset + count * sign.utf8Size, cs⟩ : Cursor).tokens.behind run := by
  induction count generalizing offset with
  | zero =>
      refine ⟨[], rfl, List.forall_mem_nil _, ?_⟩
      rw [Nat.zero_mul]
      rfl
  | succ count ih =>
      obtain ⟨run, hlength, hrun, htokens⟩ := ih (offset + sign.utf8Size)
      have hnothing : ∀ c ∈ ([] : List Char), isBlank c = true := List.forall_mem_nil _
      have hnext := Cursor.next_token offset hnothing hblank
        (hscan (List.replicate count sign ++ cs))
      have hoffset : offset + byteLength [] + byteLength [sign] = offset + sign.utf8Size := rfl
      have hbehind : offset + sign.utf8Size + count * sign.utf8Size =
          offset + (count + 1) * sign.utf8Size := by
        rw [Nat.add_mul, Nat.one_mul, Nat.add_assoc, Nat.add_comm sign.utf8Size]
      rw [hoffset] at hnext
      rw [hbehind] at htokens
      refine ⟨lexedToken (.operator op) [sign] (offset + byteLength []) :: run,
        congrArg (· + 1) hlength, List.forall_mem_cons.mpr ⟨rfl, hrun⟩, ?_⟩
      rw [List.replicate_succ, List.cons_append]
      rw [List.nil_append] at hnext
      rw [Cursor.tokens_of_next_token hnext, htokens]
      rfl

/-- Behind tokens that end without a fault comes what is scanned from there. -/
theorem Scans.tokens_append {offset : Nat} {cs tail : List Char} {tokens : List Token}
    (h : Scans offset cs tokens) (hend : EndsLexeme tail) :
    (⟨offset, cs ++ tail⟩ : Cursor).tokens =
      (⟨offset + byteLength cs, tail⟩ : Cursor).tokens.behind tokens := by
  induction h with
  | done hblank => exact Cursor.tokens_congr (Cursor.next_append _ hblank tail)
  | @token offset blank cs text rest c kind tokens hblank hc hscan _ ih =>
      have hlength : byteLength text + byteLength rest = byteLength (c :: cs) := by
        rw [← byteLength_append, (scan_token_append hscan).1]
      have hoffset : offset + byteLength blank + byteLength text + byteLength rest =
          offset + byteLength (blank ++ c :: cs) := by
        rw [byteLength_append, ← hlength]
        omega
      have hnext := Cursor.next_token offset hblank hc (scan_append hend hscan)
      rw [List.append_assoc, List.cons_append, Cursor.tokens_of_next_token hnext, ih, hoffset]
      rfl

/-- **A concatenation** of a source without a fault and a text that is empty or begins with a
separator has the tokens of both, and the fault of the second. -/
theorem tokenize_append {source rest : String} (herror : (tokenize source).error = none)
    (hrest : ∀ c ∈ rest.toList.head?, isSeparator c = true) :
    (tokenize (source ++ rest)).tokens =
        (tokenize source).tokens ++
          (tokenize rest).tokens.map (Token.shift (byteLength source.toList)) ∧
      (tokenize (source ++ rest)).error =
        (tokenize rest).error.map (LexError.shift (byteLength source.toList)) := by
  have hend : EndsLexeme rest.toList := fun c hc => endsLexeme_of_isSeparator (hrest c hc)
  have hscans := scans_of_error_eq_none herror
  have happend : tokenize (source ++ rest) =
      ((tokenize rest).shift (byteLength source.toList)).behind (tokenize source).tokens := by
    rw [tokenize, Cursor.ofText, String.toList_append, hscans.tokens_append hend,
      Cursor.tokens_shift]
    rfl
  rw [happend]
  exact ⟨rfl, rfl⟩

/-- A number that could go on with an exponent, before a comma. -/
theorem tokenize_append_comma :
    (tokenize "1.5").error = none ∧ (∀ c ∈ (", e5 ?".toList).head?, isSeparator c = true) ∧
      (tokenize ("1.5" ++ ", e5 ?")).tokens =
        (tokenize "1.5").tokens ++ (tokenize ", e5 ?").tokens.map (Token.shift 3) ∧
      (tokenize ("1.5" ++ ", e5 ?")).error = some ⟨.invalidCharacter '?', ⟨8, 9⟩⟩ := by
  have herror : (tokenize "1.5").error = none := by decide +kernel
  have hcomma : (", e5 ?".toList).head?.all isSeparator = true := by decide +kernel
  have hrest : ∀ c ∈ (", e5 ?".toList).head?, isSeparator c = true := by
    intro c hc
    rwa [Option.mem_def.mp hc] at hcomma
  obtain ⟨htokens, hfault⟩ := tokenize_append herror hrest
  have hlength : byteLength ("1.5".toList) = 3 := by decide +kernel
  rw [hlength] at htokens hfault
  refine ⟨herror, hrest, htokens, hfault.trans ?_⟩
  decide +kernel

end QueryFormula
