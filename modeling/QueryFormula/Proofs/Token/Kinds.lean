import QueryFormula.Token.Scan

/-!
# The kinds of lexemes

`scan` tries one kind of lexeme after the other: a sign, a string, a name in brackets, a number
and a word.  `TakesToken` says of each kind what a text is that begins with one, so that what
holds of a token is proved for each kind by itself.
-/

namespace QueryFormula

variable {c : Char} {cs text rest : List Char} {kind : TokenClass}

/-- The character begins a string or a name in brackets. -/
def opensDelimited (c : Char) : Bool :=
  c = '"' || c = '\'' || c = '['

theorem opensDelimited_iff : opensDelimited c = true ↔ (c = '"' ∨ c = '\'') ∨ c = '[' := by
  simp [opensDelimited]

theorem scan_of_quote (hsymbol : symbol? (c :: cs) = none) (hquote : c = '"' ∨ c = '\'') :
    scan c cs = scanString c cs := by
  simp only [scan, hsymbol, if_pos hquote]

theorem scan_of_bracket : scan '[' cs = scanBracketed cs := rfl

/-- What is neither a sign nor delimited is a number or a word. -/
theorem scan_of_plain (hsymbol : symbol? (c :: cs) = none) (hplain : opensDelimited c = false) :
    scan c cs =
      if beginsNumber (c :: cs) then scanNumber (c :: cs)
      else if isLetter c || c = '_' then scanWord c cs
      else .refused (.invalidCharacter c) [c] [] (c :: cs) := by
  rw [← Bool.not_eq_true, opensDelimited_iff, not_or] at hplain
  simp only [scan, hsymbol, if_neg hplain.1, if_neg hplain.2]

/-- A token is taken off the front of a text, as a lexeme of one kind. -/
inductive TakesToken (c : Char) (cs : List Char) :
    TokenClass → List Char → List Char → Prop
  | sign {op : Operator} {text rest : List Char}
      (symbol : symbol? (c :: cs) = some (op, text, rest)) :
      TakesToken c cs (.operator op) text rest
  | string {kind : TokenClass} {text rest : List Char} (noSign : symbol? (c :: cs) = none)
      (quote : c = '"' ∨ c = '\'') (lexeme : scanString c cs = .token kind text rest) :
      TakesToken c cs kind text rest
  | bracketed {kind : TokenClass} {text rest : List Char} (bracket : c = '[')
      (lexeme : scanBracketed cs = .token kind text rest) : TakesToken c cs kind text rest
  | number {kind : TokenClass} {text rest : List Char} (noSign : symbol? (c :: cs) = none)
      (plain : opensDelimited c = false) (begins : beginsNumber (c :: cs) = true)
      (lexeme : scanNumber (c :: cs) = .token kind text rest) : TakesToken c cs kind text rest
  | word {kind : TokenClass} {text rest : List Char} (noSign : symbol? (c :: cs) = none)
      (plain : opensDelimited c = false) (noNumber : beginsNumber (c :: cs) = false)
      (begins : (isLetter c || c = '_') = true)
      (lexeme : scanWord c cs = .token kind text rest) : TakesToken c cs kind text rest

/-- **One token** is taken as a lexeme of one kind. -/
theorem scan_eq_token_iff : scan c cs = .token kind text rest ↔ TakesToken c cs kind text rest := by
  constructor
  · intro h
    cases hsymbol : symbol? (c :: cs) with
    | some found =>
        obtain ⟨op, sign, after⟩ := found
        rw [scan, hsymbol] at h
        cases h
        exact .sign hsymbol
    | none =>
        cases hplain : opensDelimited c with
        | true =>
            rcases opensDelimited_iff.mp hplain with hquote | rfl
            · exact .string hsymbol hquote (scan_of_quote hsymbol hquote ▸ h)
            · exact .bracketed rfl (scan_of_bracket ▸ h)
        | false =>
            rw [scan_of_plain hsymbol hplain] at h
            cases hnumber : beginsNumber (c :: cs) with
            | true =>
                rw [if_pos hnumber] at h
                exact .number hsymbol hplain hnumber h
            | false =>
                rw [hnumber, if_neg Bool.false_ne_true] at h
                split at h
                · rename_i hword
                  exact .word hsymbol hplain hnumber hword h
                · cases h
  · rintro (hsymbol | ⟨hsymbol, hquote, h⟩ | ⟨rfl, h⟩ | ⟨hsymbol, hplain, hnumber, h⟩ |
      ⟨hsymbol, hplain, hnumber, hword, h⟩)
    · rw [scan, hsymbol]
    · exact (scan_of_quote hsymbol hquote).trans h
    · exact scan_of_bracket.trans h
    · rw [scan_of_plain hsymbol hplain, if_pos hnumber, h]
    · rw [scan_of_plain hsymbol hplain, hnumber, if_neg Bool.false_ne_true, if_pos hword, h]

end QueryFormula
