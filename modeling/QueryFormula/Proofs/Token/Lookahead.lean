import QueryFormula.Proofs.Token.LetterCase

/-!
# What follows a lexeme

Scanning is greedy and looks ahead: at a second sign, for a point with a digit behind it, for
an exponent.  It never looks beyond a character that no lexeme goes on with
(`endsLexeme`), so a text that begins with one may be put behind a lexeme and what is left
of the source (`scan_append`).  A blank, a parenthesis and a comma are such characters.
-/

namespace QueryFormula

/-! ### Characters that end a lexeme -/

/-- The code points of a set of characters. -/
def CodeRanges.codes (ranges : CodeRanges) : List Nat :=
  ranges.flatMap fun range => List.range' range.1 (range.2 + 1 - range.1)

theorem CodeRanges.mem_codes_of_contains {ranges : CodeRanges} {c : Char}
    (h : ranges.contains c = true) : c.toNat ∈ ranges.codes := by
  obtain ⟨range, hrange, hbounds⟩ := List.any_eq_true.mp h
  simp only [Bool.and_eq_true, decide_eq_true_eq] at hbounds
  refine List.mem_flatMap.mpr ⟨range, hrange, List.mem_range'_1.mpr ⟨hbounds.1, ?_⟩⟩
  omega

/-- What is true of all blanks is true of a blank. -/
theorem of_isBlank {p : Char → Bool} (h : blanks.codes.all (fun n => p (Char.ofNat n)) = true)
    {c : Char} (hc : isBlank c = true) : p c = true := by
  have hcode := List.all_eq_true.mp h _ (CodeRanges.mem_codes_of_contains hc)
  rwa [Char.ofNat_toNat] at hcode

/-- No lexeme that is not delimited goes on with the character. -/
def endsLexeme (c : Char) : Bool :=
  !(isWordChar c || isDecimalDigit c || ['=', '+', '-'].contains c)

/-- The character separates what is written before it from what is written behind it. -/
def isSeparator (c : Char) : Bool :=
  isBlank c || ['(', ')', ','].contains c

theorem endsLexeme_of_isSeparator {c : Char} (h : isSeparator c = true) :
    endsLexeme c = true := by
  have hblanks : blanks.codes.all (fun n => endsLexeme (Char.ofNat n)) = true := by
    decide +kernel
  have hmarks : ['(', ')', ','].all endsLexeme = true := by
    decide +kernel
  rcases Bool.or_eq_true_iff.mp h with hblank | hmark
  · exact of_isBlank hblanks hblank
  · exact List.all_eq_true.mp hmarks c (List.contains_iff_mem.mp hmark)

/-- No lexeme goes on into the text. -/
def EndsLexeme (cs : List Char) : Prop :=
  ∀ c ∈ cs.head?, endsLexeme c = true

/-- The characters other than digits that are looked for behind the beginning of a lexeme. -/
def continuations : List Char :=
  ['+', '-', '.', '=', 'e', 'E']

theorem endsLexeme_continuation (c : Char) (h : c ∈ continuations) : endsLexeme c = false := by
  have hall : continuations.all (fun c => !endsLexeme c) = true := by
    decide +kernel
  simpa using List.all_eq_true.mp hall c h

theorem isDecimalDigit_continuation (c : Char) (h : c ∈ continuations) :
    isDecimalDigit c = false := by
  have hall : continuations.all (fun c => !isDecimalDigit c) = true := rfl
  simpa using List.all_eq_true.mp hall c h

namespace EndsLexeme

variable {cs tail : List Char}

/-- None of them is found behind a lexeme. -/
theorem not_continuation (h : EndsLexeme tail) (c : Char) (hc : c ∈ tail.head?)
    (hmem : c ∈ continuations) : False :=
  Bool.noConfusion ((h c hc).symm.trans (endsLexeme_continuation c hmem))

/-- A run of characters of a lexeme ends where it did. -/
theorem takeWhile {p : Char → Bool} (h : EndsLexeme tail)
    (hp : ∀ c, endsLexeme c = true → p c = false) (cs : List Char) :
    (cs ++ tail).takeWhile p = cs.takeWhile p := by
  induction cs with
  | nil =>
      cases tail with
      | nil => rfl
      | cons c tail => simp [hp c (h c rfl)]
  | cons c cs ih =>
      rw [List.cons_append, List.takeWhile_cons, List.takeWhile_cons, ih]

theorem dropWhile {p : Char → Bool} (h : EndsLexeme tail)
    (hp : ∀ c, endsLexeme c = true → p c = false) (cs : List Char) :
    (cs ++ tail).dropWhile p = cs.dropWhile p ++ tail := by
  induction cs with
  | nil =>
      cases tail with
      | nil => rfl
      | cons c tail => simp [hp c (h c rfl)]
  | cons c cs ih =>
      rw [List.cons_append, List.dropWhile_cons, List.dropWhile_cons, ih]
      split <;> rfl

theorem isWordChar_eq_false {c : Char} (h : endsLexeme c = true) : isWordChar c = false := by
  simp only [endsLexeme, Bool.not_eq_true', Bool.or_eq_false_iff] at h
  exact h.1.1

theorem isDecimalDigit_eq_false {c : Char} (h : endsLexeme c = true) :
    isDecimalDigit c = false := by
  simp only [endsLexeme, Bool.not_eq_true', Bool.or_eq_false_iff] at h
  exact h.1.2

/-! ### Numerals -/

theorem splitSign (h : EndsLexeme tail) (cs : List Char) :
    Exponent.splitSign (cs ++ tail) =
      ((Exponent.splitSign cs).1, (Exponent.splitSign cs).2 ++ tail) := by
  cases cs with
  | nil =>
      refine Exponent.splitSign.eq_3 _ ?_ ?_
      · rintro rest rfl
        exact h.not_continuation '+' rfl (by decide)
      · rintro rest rfl
        exact h.not_continuation '-' rfl (by decide)
  | cons c cs =>
      unfold Exponent.splitSign
      split <;> simp_all

theorem splitExponent (h : EndsLexeme tail) (cs : List Char) :
    Exponent.split (cs ++ tail) = ((Exponent.split cs).1, (Exponent.split cs).2 ++ tail) := by
  cases cs with
  | nil =>
      cases tail with
      | nil => rfl
      | cons c tail =>
          have hmark : ¬(c = 'e' ∨ c = 'E') := by
            rintro (rfl | rfl)
            · exact h.not_continuation 'e' rfl (by decide)
            · exact h.not_continuation 'E' rfl (by decide)
          simp [Exponent.split, hmark]
  | cons mark cs =>
      simp only [List.cons_append, Exponent.split, h.splitSign cs,
        h.takeWhile fun _ => isDecimalDigit_eq_false,
        h.dropWhile fun _ => isDecimalDigit_eq_false]
      split
      · generalize (Exponent.splitSign cs).2.takeWhile isDecimalDigit = digits
        cases digits <;> rfl
      · rfl

theorem splitFraction (h : EndsLexeme tail) (cs : List Char) :
    Numeral.splitFraction (cs ++ tail) =
      ((Numeral.splitFraction cs).1, (Numeral.splitFraction cs).2 ++ tail) := by
  cases cs with
  | nil =>
      refine Numeral.splitFraction.eq_2 _ ?_
      rintro d rest rfl
      exact h.not_continuation '.' rfl (by decide)
  | cons c cs =>
      cases cs with
      | nil =>
          cases tail with
          | nil => simp
          | cons d tail =>
              have hd := isDecimalDigit_eq_false (h d rfl)
              by_cases hc : c = '.'
              · subst hc
                simp [Numeral.splitFraction, hd]
              · simp [Numeral.splitFraction, hc]
      | cons d cs =>
          by_cases hc : c = '.'
          · subst hc
            have htake := h.takeWhile (fun _ => isDecimalDigit_eq_false) (d :: cs)
            have hdrop := h.dropWhile (fun _ => isDecimalDigit_eq_false) (d :: cs)
            rw [List.cons_append] at htake hdrop
            rw [List.cons_append, List.cons_append, Numeral.splitFraction, Numeral.splitFraction,
              htake, hdrop]
            split <;> rfl
          · simp [Numeral.splitFraction, hc]

theorem splitNumeral (h : EndsLexeme tail) (cs : List Char) :
    Numeral.split (cs ++ tail) = ((Numeral.split cs).1, (Numeral.split cs).2 ++ tail) := by
  simp only [Numeral.split, h.takeWhile fun _ => isDecimalDigit_eq_false,
    h.dropWhile fun _ => isDecimalDigit_eq_false, h.splitFraction, h.splitExponent]

theorem beginsNumber (h : EndsLexeme tail) (c : Char) (cs : List Char) :
    beginsNumber (c :: (cs ++ tail)) = beginsNumber (c :: cs) := by
  cases cs with
  | nil =>
      cases tail with
      | nil => rfl
      | cons d tail =>
          have hd : d.isDigit = false := by
            refine Bool.eq_false_iff.mpr fun hdigit => ?_
            exact Bool.noConfusion
              ((isDecimalDigit_eq_false (h d rfl)).symm.trans (isDecimalDigit_of_isDigit hdigit))
          by_cases hc : c = '.'
          · subst hc
            simp [QueryFormula.beginsNumber, hd]
          · simp [QueryFormula.beginsNumber, hc]
  | cons d cs =>
      by_cases hc : c = '.'
      · subst hc
        rfl
      · simp [QueryFormula.beginsNumber, hc]

end EndsLexeme

/-! ### Operators -/

/-- The signs that are operators by themselves. -/
def operatorSigns : List Char :=
  [',', '(', ')', '+', '-', '*', '/', '=', '<', '>']

/-- No operator begins with another sign, but for the inequality. -/
theorem symbol?_eq_none_iff {c : Char} {cs : List Char} :
    symbol? (c :: cs) = none ↔ c ∉ operatorSigns ∧ (c = '!' → cs.head? ≠ some '=') := by
  generalize hl : c :: cs = l
  fun_cases symbol? l with
  | case14 =>
      cases hl
      rw [eq_self_iff_true, true_iff]
      constructor
      · intro hsign
        simp only [operatorSigns, List.mem_cons, List.not_mem_nil, or_false] at hsign
        rcases hsign with rfl | rfl | rfl | rfl | rfl | rfl | rfl | rfl | rfl | rfl <;> simp_all
      · rintro rfl hhead
        cases cs <;> simp_all
  | _ =>
      cases hl
      simp [operatorSigns]

section Symbol

variable {c : Char} {cs text rest tail : List Char} {op : Operator}

/-- An operator to which no sign of equality can be added is not changed. -/
theorem symbol?_append_of_some (h : EndsLexeme tail)
    (hsymbol : symbol? cs = some (op, text, rest)) :
    symbol? (cs ++ tail) = some (op, text, rest ++ tail) := by
  have hsingle : ∀ {single : List Char}, (∀ after, single = '=' :: after → False) →
      ∀ after, single ++ tail = '=' :: after → False := by
    intro single hnone after happend
    cases single with
    | nil =>
        obtain rfl : tail = '=' :: after := happend
        exact h.not_continuation '=' rfl (by decide)
    | cons d single =>
        cases happend
        exact hnone single rfl
  revert hsymbol
  fun_cases symbol? cs with
  | case11 single hnone =>
      rintro ⟨⟩
      exact symbol?.eq_11 _ (hsingle hnone)
  | case13 single hnone =>
      rintro ⟨⟩
      exact symbol?.eq_13 _ (hsingle hnone)
  | case14 => rintro ⟨⟩
  | _ =>
      rintro ⟨⟩
      rfl

theorem symbol?_append_of_none (h : EndsLexeme tail) (hsymbol : symbol? (c :: cs) = none) :
    symbol? (c :: (cs ++ tail)) = none := by
  obtain ⟨hsign, hunequal⟩ := symbol?_eq_none_iff.mp hsymbol
  refine symbol?_eq_none_iff.mpr ⟨hsign, fun hc hhead => ?_⟩
  cases cs with
  | nil => exact h.not_continuation '=' hhead (by decide)
  | cons d cs => exact hunequal hc hhead

end Symbol

/-! ### Lexemes before an end -/

section Before

variable {kind : TokenClass} {c : Char} {cs text rest tail : List Char}

theorem scanString_append {quote : Char} (h : scanString quote cs = .token kind text rest) :
    scanString quote (cs ++ tail) = .token kind text (rest ++ tail) := by
  unfold scanString at h
  split at h
  · rename_i body after hsplit
    cases h
    have hafter := Quoted.split_closed hsplit (rest ++ tail)
    rw [← Quoted.split_append hsplit, List.append_assoc, List.cons_append, scanString, hafter]
  · cases h

theorem scanBracketed_append (h : scanBracketed cs = .token kind text rest) :
    scanBracketed (cs ++ tail) = .token kind text (rest ++ tail) := by
  unfold scanBracketed at h
  split at h
  · rename_i body after hextent
    cases h
    have hafter := Bracketed.extent_closed hextent (rest ++ tail)
    rw [← Bracketed.extent_closed_append hextent, List.append_assoc, List.cons_append,
      scanBracketed, hafter]
  · cases h
  · cases h

theorem scanNumber_append (hend : EndsLexeme tail) (h : scanNumber cs = .token kind text rest) :
    scanNumber (cs ++ tail) = .token kind text (rest ++ tail) := by
  unfold scanNumber at h ⊢
  rw [hend.splitNumeral]
  dsimp only at h ⊢
  split at h
  · rename_i value hvalue
    cases h
    simp only
  · cases h

theorem scanWord_append (hend : EndsLexeme tail) (h : scanWord c cs = .token kind text rest) :
    scanWord c (cs ++ tail) = .token kind text (rest ++ tail) := by
  cases h
  rw [scanWord, hend.takeWhile fun _ => EndsLexeme.isWordChar_eq_false,
    hend.dropWhile fun _ => EndsLexeme.isWordChar_eq_false]

/-- **What follows a lexeme** does not count if no lexeme goes on with it. -/
theorem scan_append (hend : EndsLexeme tail) (h : scan c cs = .token kind text rest) :
    scan c (cs ++ tail) = .token kind text (rest ++ tail) := by
  refine scan_eq_token_iff.mpr ?_
  cases scan_eq_token_iff.mp h with
  | sign hsymbol => exact .sign (symbol?_append_of_some hend hsymbol)
  | string hsymbol hquote hlexeme =>
      exact .string (symbol?_append_of_none hend hsymbol) hquote (scanString_append hlexeme)
  | bracketed hbracket hlexeme => exact .bracketed hbracket (scanBracketed_append hlexeme)
  | number hsymbol hplain hbegins hlexeme =>
      exact .number (symbol?_append_of_none hend hsymbol) hplain
        ((hend.beginsNumber c cs).trans hbegins) (scanNumber_append hend hlexeme)
  | word hsymbol hplain hnumber hbegins hlexeme =>
      exact .word (symbol?_append_of_none hend hsymbol) hplain
        ((hend.beginsNumber c cs).trans hnumber) hbegins (scanWord_append hend hlexeme)

end Before

end QueryFormula
