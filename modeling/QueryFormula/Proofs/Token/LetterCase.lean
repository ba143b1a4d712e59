import QueryFormula.Proofs.Text.LetterCase
import QueryFormula.Proofs.Token.Kinds

/-!
# Lexemes and the case of letters

At the front of two texts with the same letters stand lexemes of one class and of one
length (`scan_sameLetters`).  Names in brackets and strings are the exception: behind a
backslash the case of a letter matters, so these have to be the same in both texts.
-/

namespace QueryFormula

variable {cs cs' : List Char} {c c' : Char}

/-! ### Operators and words -/

/-- An operator that begins a text begins every text with the same letters. -/
theorem symbol?_sameLetters (h : SameLetters cs cs') {op : Operator} {text rest : List Char}
    (hs : symbol? cs = some (op, text, rest)) : ∃ rest', symbol? cs' = some (op, text, rest') := by
  revert hs
  fun_cases symbol? cs with
  | case9 tail | case10 tail | case12 tail =>
      rintro ⟨⟩
      obtain ⟨_, rfl, htail⟩ := h.of_sign (by decide)
      obtain ⟨rest', rfl, -⟩ := htail.of_sign (by decide)
      exact ⟨rest', rfl⟩
  | case11 tail hsingle =>
      rintro ⟨⟩
      obtain ⟨rest', rfl, hrest⟩ := h.of_sign (by decide)
      exact ⟨rest', symbol?.eq_11 _ (hrest.not_sign (by decide) hsingle)⟩
  | case13 tail hsingle =>
      rintro ⟨⟩
      obtain ⟨rest', rfl, hrest⟩ := h.of_sign (by decide)
      exact ⟨rest', symbol?.eq_13 _ (hrest.not_sign (by decide) hsingle)⟩
  | case14 => rintro ⟨⟩
  | _ =>
      rintro ⟨⟩
      obtain ⟨rest', rfl, -⟩ := h.of_sign (by decide)
      exact ⟨rest', rfl⟩

theorem symbol?_eq_none (h : SameLetters cs cs') (hs : symbol? cs = none) : symbol? cs' = none := by
  cases hs' : symbol? cs' with
  | none => rfl
  | some found =>
      obtain ⟨op, text, rest⟩ := found
      obtain ⟨_, hfound⟩ := symbol?_sameLetters h.symm hs'
      rw [hs] at hfound
      cases hfound

theorem ignoresCase_isWordChar : IgnoresCase isWordChar :=
  ignoresCase_of_capitals (by decide)

theorem ignoresCase_beginsWord : IgnoresCase fun c => isLetter c || c = '_' :=
  ignoresCase_of_capitals (by decide)

theorem wordKind_eq (h : SameLetters cs cs') : wordKind cs' = wordKind cs := by
  rw [wordKind, wordKind, show cs'.map Char.toLower = cs.map Char.toLower from h.symm]

/-! ### Numerals -/

/-- The exponent with a small mark. -/
def Exponent.normal (e : Exponent) : Exponent :=
  { e with mark := 'e' }

/-- The numeral with a small mark of its exponent. -/
def Numeral.normal (n : Numeral) : Numeral :=
  { n with exponent := n.exponent.map Exponent.normal }

/-- The mark of the exponent does not count. -/
theorem Numeral.value?_normal (n : Numeral) : n.normal.value? = n.value? := by
  rcases n with ⟨whole, fraction, _ | exponent⟩ <;> rfl

theorem Numeral.length_chars_normal (n : Numeral) : n.normal.chars.length = n.chars.length := by
  rcases n with ⟨whole, fraction, _ | exponent⟩
  · rfl
  · simp [normal, chars, Exponent.normal, Exponent.chars]

theorem ignoresCase_exponentMark : IgnoresCase fun c => decide (c = 'e' ∨ c = 'E') :=
  ignoresCase_of_capitals (by decide)

theorem Exponent.splitSign_sameLetters (h : SameLetters cs cs') :
    (splitSign cs').1 = (splitSign cs).1 ∧ SameLetters (splitSign cs).2 (splitSign cs').2 := by
  fun_cases splitSign cs with
  | case1 rest | case2 rest =>
      obtain ⟨rest', rfl, hrest⟩ := h.of_sign (by decide)
      exact ⟨rfl, hrest⟩
  | case3 _ hplus hminus =>
      rw [splitSign.eq_3 _ (h.not_sign (by decide) hplus) (h.not_sign (by decide) hminus)]
      exact ⟨rfl, h⟩

theorem Exponent.split_sameLetters (h : SameLetters cs cs') :
    (split cs').1.map normal = (split cs).1.map normal := by
  cases cs with
  | nil =>
      obtain rfl : cs' = [] := List.length_eq_zero_iff.mp h.length_eq
      rfl
  | cons mark rest =>
      obtain ⟨mark', rest', rfl, hletter, hrest⟩ := h.of_cons
      have hmark : (mark' = 'e' ∨ mark' = 'E') ↔ (mark = 'e' ∨ mark = 'E') := by
        simpa only [decide_eq_decide] using ignoresCase_exponentMark.congr hletter
      obtain ⟨hsign, htail⟩ := splitSign_sameLetters hrest
      simp only [split, hmark, htail.takeWhile_digits]
      split
      · generalize (splitSign rest).2.takeWhile isDecimalDigit = digits
        cases digits with
        | nil => rfl
        | cons d digits => simp [normal, hsign]
      · rfl

theorem Numeral.splitFraction_sameLetters (h : SameLetters cs cs') :
    (splitFraction cs').1 = (splitFraction cs).1 ∧
      SameLetters (splitFraction cs).2 (splitFraction cs').2 := by
  fun_cases splitFraction cs with
  | case1 d rest hd =>
      obtain ⟨tail, rfl, htail⟩ := h.of_sign (by decide)
      obtain ⟨d', rest', rfl, hletter, -⟩ := htail.of_cons
      rw [splitFraction, if_pos ((ignoresCase_isDecimalDigit.congr hletter).trans hd)]
      exact ⟨htail.takeWhile_digits, htail.dropWhile ignoresCase_isDecimalDigit⟩
  | case2 d rest hd =>
      obtain ⟨tail, rfl, htail⟩ := h.of_sign (by decide)
      obtain ⟨d', rest', rfl, hletter, -⟩ := htail.of_cons
      rw [splitFraction, ignoresCase_isDecimalDigit.congr hletter, if_neg hd]
      exact ⟨rfl, h⟩
  | case3 _ hnone =>
      have hnone' : ∀ d rest, cs' = '.' :: d :: rest → False := by
        rintro d rest rfl
        obtain ⟨tail, rfl, htail⟩ := h.symm.of_sign (by decide)
        obtain ⟨d', rest', rfl, -⟩ := htail.of_cons
        exact hnone d' rest' rfl
      rw [splitFraction.eq_2 _ hnone']
      exact ⟨rfl, h⟩

/-- Numerals that begin texts with the same letters differ in the mark of the exponent. -/
theorem Numeral.split_sameLetters (h : SameLetters cs cs') :
    (split cs').1.normal = (split cs).1.normal := by
  obtain ⟨hfraction, hrest⟩ :=
    splitFraction_sameLetters (h.dropWhile ignoresCase_isDecimalDigit)
  have hexponent := Exponent.split_sameLetters hrest
  simp only [normal, split, h.takeWhile_digits, hfraction, hexponent]

theorem beginsNumber_eq (h : SameLetters cs cs') : beginsNumber cs' = beginsNumber cs := by
  have hlower : ∀ cs, beginsNumber (cs.map Char.toLower) = beginsNumber cs := by
    intro cs
    fun_cases beginsNumber cs with
    | case1 d tail => exact ignoresCase_isDigit d
    | case2 c tail hpoint =>
        rw [List.map_cons, beginsNumber.eq_2]
        · exact ignoresCase_isDigit c
        · rintro d rest hc htail
          obtain rfl : c = '.' := eq_of_toLower_eq hc.symm (by decide)
          obtain ⟨d', rest', rfl, -⟩ := List.map_eq_cons_iff.mp htail
          exact hpoint d' rest' rfl rfl
    | case3 => rfl
  rw [← hlower cs', ← h, hlower cs]

/-! ### One lexeme -/

section Lexeme

variable {kind : TokenClass} {text rest : List Char}

theorem scanString_exact {quote : Char} (h : scanString quote cs = .token kind text rest)
    (hexact : text <+: quote :: cs') : ∃ rest', scanString quote cs' = .token kind text rest' := by
  unfold scanString at h
  split at h
  · rename_i body tail hsplit
    cases h
    obtain ⟨rest', htext⟩ := hexact
    obtain rfl : cs' = body ++ quote :: rest' := by simpa using htext.symm
    exact ⟨rest', by rw [scanString, Quoted.split_closed hsplit]⟩
  · cases h

theorem scanBracketed_exact (h : scanBracketed cs = .token kind text rest)
    (hexact : text <+: '[' :: cs') : ∃ rest', scanBracketed cs' = .token kind text rest' := by
  unfold scanBracketed at h
  split at h
  · rename_i body tail hextent
    cases h
    obtain ⟨rest', htext⟩ := hexact
    obtain rfl : cs' = body ++ ']' :: rest' := by simpa using htext.symm
    exact ⟨rest', by rw [scanBracketed, Bracketed.extent_closed hextent]⟩
  · cases h
  · cases h

theorem scanNumber_sameLetters (h : SameLetters cs cs')
    (hscan : scanNumber cs = .token kind text rest) :
    ∃ text' rest', scanNumber cs' = .token kind text' rest' ∧ text'.length = text.length := by
  have hnormal := Numeral.split_sameLetters h
  have hvalue : (Numeral.split cs').1.value? = (Numeral.split cs).1.value? := by
    rw [← Numeral.value?_normal, hnormal, Numeral.value?_normal]
  have hlength : (Numeral.split cs').1.chars.length = (Numeral.split cs).1.chars.length := by
    rw [← Numeral.length_chars_normal, hnormal, Numeral.length_chars_normal]
  unfold scanNumber at hscan
  dsimp only at hscan
  split at hscan
  · rename_i value hsome
    cases hscan
    refine ⟨(Numeral.split cs').1.chars, (Numeral.split cs').2, ?_, hlength⟩
    rw [scanNumber]
    simp only [hvalue, hsome]
  · cases hscan

theorem scanWord_sameLetters (h : SameLetters (c :: cs) (c' :: cs'))
    (hscan : scanWord c cs = .token kind text rest) :
    ∃ text' rest', scanWord c' cs' = .token kind text' rest' ∧ text'.length = text.length := by
  obtain ⟨hletter, hrest⟩ := SameLetters.cons_iff.mp h
  have htext := SameLetters.cons_iff.mpr ⟨hletter, hrest.takeWhile ignoresCase_isWordChar⟩
  cases hscan
  refine ⟨c' :: cs'.takeWhile isWordChar, cs'.dropWhile isWordChar, ?_, htext.length_eq⟩
  rw [scanWord, wordKind_eq htext]

theorem ignoresCase_opensDelimited : IgnoresCase opensDelimited :=
  ignoresCase_of_capitals (by decide)

/-- **One lexeme.**  Texts with the same letters begin with lexemes of one class and of
one length, if strings and names in brackets are the same. -/
theorem scan_sameLetters (h : SameLetters (c :: cs) (c' :: cs'))
    (hscan : scan c cs = .token kind text rest)
    (hexact : opensDelimited c = true → text <+: c' :: cs') :
    ∃ text' rest', scan c' cs' = .token kind text' rest' ∧ text'.length = text.length := by
  obtain ⟨hletter, -⟩ := SameLetters.cons_iff.mp h
  cases scan_eq_token_iff.mp hscan with
  | sign hsymbol =>
      obtain ⟨rest', hsymbol'⟩ := symbol?_sameLetters h hsymbol
      exact ⟨text, rest', scan_eq_token_iff.mpr (.sign hsymbol'), rfl⟩
  | string hsymbol hquote hlexeme =>
      obtain rfl : c' = c := eq_of_toLower_eq hletter (by rcases hquote with rfl | rfl <;> decide)
      obtain ⟨rest', hlexeme'⟩ :=
        scanString_exact hlexeme (hexact (opensDelimited_iff.mpr (.inl hquote)))
      exact ⟨text, rest', scan_eq_token_iff.mpr
        (.string (symbol?_eq_none h hsymbol) hquote hlexeme'), rfl⟩
  | bracketed hbracket hlexeme =>
      subst hbracket
      obtain rfl : c' = '[' := eq_of_toLower_eq hletter (by decide)
      obtain ⟨rest', hlexeme'⟩ := scanBracketed_exact hlexeme (hexact rfl)
      exact ⟨text, rest', scan_eq_token_iff.mpr (.bracketed rfl hlexeme'), rfl⟩
  | number hsymbol hplain hbegins hlexeme =>
      obtain ⟨text', rest', hlexeme', hlength⟩ := scanNumber_sameLetters h hlexeme
      have hplain' := (ignoresCase_opensDelimited.congr hletter).trans hplain
      exact ⟨text', rest', scan_eq_token_iff.mpr (.number (symbol?_eq_none h hsymbol) hplain'
        ((beginsNumber_eq h).trans hbegins) hlexeme'), hlength⟩
  | word hsymbol hplain hnumber hbegins hlexeme =>
      obtain ⟨text', rest', hlexeme', hlength⟩ := scanWord_sameLetters h hlexeme
      have hplain' := (ignoresCase_opensDelimited.congr hletter).trans hplain
      exact ⟨text', rest', scan_eq_token_iff.mpr (.word (symbol?_eq_none h hsymbol) hplain'
        ((beginsNumber_eq h).trans hnumber) ((ignoresCase_beginsWord.congr hletter).trans hbegins)
        hlexeme'), hlength⟩

/-- A text with the same letters begins with the same lexeme, respelled. -/
theorem scan_respelled {text' rest' : List Char} (hscan : scan c cs = .token kind text rest)
    (htext : SameLetters text text') (hrest : SameLetters rest rest')
    (hexact : opensDelimited c = true → text' = text) :
    ∃ c' cs', text' ++ rest' = c' :: cs' ∧ c.toLower = c'.toLower ∧
      scan c' cs' = .token kind text' rest' := by
  have happend := (scan_token_append hscan).1
  have hsame : SameLetters (c :: cs) (text' ++ rest') := happend ▸ htext.append hrest
  obtain ⟨c', cs', happend', hletter, hletters⟩ := hsame.of_cons
  have hprefix : opensDelimited c = true → text <+: c' :: cs' := by
    intro hdelimited
    rw [← happend', hexact hdelimited]
    exact List.prefix_append text rest'
  obtain ⟨text₂, rest₂, hscan', hlength⟩ :=
    scan_sameLetters (SameLetters.cons_iff.mpr ⟨hletter, hletters⟩) hscan hprefix
  obtain ⟨rfl, rfl⟩ : text₂ = text' ∧ rest₂ = rest' := by
    refine List.append_inj ((scan_token_append hscan').1.trans happend'.symm) ?_
    rw [hlength, htext.length_eq]
  exact ⟨c', cs', happend', hletter, hscan'⟩

end Lexeme

end QueryFormula
