import QueryFormula.Proofs.Text.Runs
import QueryFormula.Proofs.Token.Lookahead
import QueryFormula.Proofs.Token.Scans

/-!
# A lexeme by itself

The class of a token is a matter of its text.  Scanning looks ahead for something a lexeme
goes on with, and it finds no more of that when the text is cut behind the lexeme: there is
the same lexeme at the front of what remains (`scan_truncated`).  Cut right behind it, the
lexeme is scanned by itself (`scan_alone`).
-/

namespace QueryFormula

/-- What is taken off the front of a text is taken off it too when the text is cut somewhere
behind that. -/
def Truncates {α : Type} (take : List Char → α × List Char) : Prop :=
  ∀ cs tail found rest, take (cs ++ tail) = (found, rest ++ tail) → take cs = (found, rest)

/-! ### Cut operators -/

section Symbol

variable {c : Char} {cs text rest tail : List Char} {op : Operator}

theorem symbol?_truncated_of_some (hsymbol : symbol? (cs ++ tail) = some (op, text, rest ++ tail)) :
    symbol? cs = some (op, text, rest) := by
  obtain rfl := eq_append_of_cut (symbol?_append hsymbol).1
  rw [List.append_assoc] at hsymbol
  generalize hrest : rest ++ tail = behind at hsymbol
  revert hsymbol
  generalize hl : text ++ behind = l
  fun_cases symbol? l with
  | case11 single hnone =>
      rintro ⟨⟩
      refine symbol?.eq_11 _ fun after hafter => ?_
      obtain rfl : rest = '=' :: after := hafter
      exact hnone (after ++ tail) hrest.symm
  | case13 single hnone =>
      rintro ⟨⟩
      refine symbol?.eq_13 _ fun after hafter => ?_
      obtain rfl : rest = '=' :: after := hafter
      exact hnone (after ++ tail) hrest.symm
  | case14 => rintro ⟨⟩
  | _ =>
      rintro ⟨⟩
      rfl

theorem symbol?_truncated_of_none (hsymbol : symbol? (c :: (cs ++ tail)) = none) :
    symbol? (c :: cs) = none := by
  obtain ⟨hsign, hunequal⟩ := symbol?_eq_none_iff.mp hsymbol
  refine symbol?_eq_none_iff.mpr ⟨hsign, fun hc hhead => hunequal hc ?_⟩
  rw [List.head?_append, hhead, Option.some_or]

end Symbol

/-! ### Cut numerals -/

namespace Exponent

theorem truncates_splitSign : Truncates splitSign := by
  intro cs tail sign rest h
  have happend := splitSign_append (cs ++ tail)
  rw [h] at happend
  obtain rfl := eq_append_of_cut happend
  cases sign with
  | none =>
      rw [Option.toList_none, List.nil_append] at h ⊢
      refine splitSign.eq_3 _ ?_ ?_ <;>
        · rintro after rfl
          cases h
  | some sign =>
      rw [Option.toList_some, List.singleton_append, List.cons_append] at h
      unfold splitSign at h
      split at h <;> cases h <;> rfl

/-- Where no digits follow a sign, none follow it in less. -/
theorem no_digits_truncated {cs tail : List Char}
    (h : (splitSign (cs ++ tail)).2.takeWhile isDecimalDigit = []) :
    (splitSign cs).2.takeWhile isDecimalDigit = [] := by
  have hprefix : (splitSign cs).2 <+: (splitSign (cs ++ tail)).2 := by
    cases cs with
    | nil => exact List.nil_prefix
    | cons c cs =>
        unfold splitSign
        split <;> simp_all
  obtain ⟨behind, hbehind⟩ := hprefix
  rw [← hbehind] at h
  cases hcs : (splitSign cs).2 with
  | nil => rfl
  | cons d ds =>
      rw [hcs, List.cons_append, List.takeWhile_cons] at h
      rw [List.takeWhile_cons]
      split at h
      · cases h
      · rename_i hd
        rw [if_neg hd]

theorem truncates_split : Truncates split := by
  intro cs tail e rest h
  cases cs with
  | nil =>
      have happend := split_append tail
      rw [show split tail = (e, rest ++ tail) from h] at happend
      have hcut : [] = (e.map chars).getD [] ++ rest := eq_append_of_cut happend
      obtain ⟨hchars, hrest⟩ := List.append_eq_nil_iff.mp hcut.symm
      cases e with
      | none => rw [hrest, split]
      | some e => cases hchars
  | cons mark cs =>
      rw [List.cons_append] at h
      by_cases hmark : mark = 'e' ∨ mark = 'E'
      · simp only [split, if_pos hmark] at h ⊢
        cases hdigits : (splitSign (cs ++ tail)).2.takeWhile isDecimalDigit with
        | nil =>
            rw [hdigits] at h
            obtain ⟨rfl, hrest⟩ := Prod.mk.inj h
            have hcut : mark :: cs ++ tail = rest ++ tail := hrest
            rw [no_digits_truncated hdigits, List.append_cancel_right hcut]
        | cons d ds =>
            rw [hdigits] at h
            obtain ⟨rfl, hrest⟩ := Prod.mk.inj h
            have happend := List.takeWhile_append_dropWhile (p := isDecimalDigit)
              (l := (splitSign (cs ++ tail)).2)
            rw [hdigits, hrest, ← List.append_assoc] at happend
            have hsign : splitSign cs = ((splitSign (cs ++ tail)).1, (d :: ds) ++ rest) :=
              truncates_splitSign cs tail _ _ (Prod.ext rfl happend.symm)
            have hdrop : ((d :: ds) ++ rest ++ tail).dropWhile isDecimalDigit = rest ++ tail := by
              rw [happend, hrest]
            have hrun := run_truncated hdrop
            rw [happend, hdigits] at hrun
            simp only [hsign, hrun.1, hrun.2]
      · simp only [split, if_neg hmark] at h ⊢
        obtain ⟨rfl, hrest⟩ := Prod.mk.inj h
        have hcut : mark :: cs ++ tail = rest ++ tail := hrest
        rw [List.append_cancel_right hcut]

end Exponent

namespace Numeral

theorem truncates_splitFraction : Truncates splitFraction := by
  intro cs tail fraction rest h
  have happend := splitFraction_append (cs ++ tail)
  rw [h] at happend
  obtain rfl := eq_append_of_cut happend
  cases fraction with
  | nil =>
      rw [fractionChars, if_pos rfl, List.nil_append] at h ⊢
      fun_cases splitFraction rest with
      | case1 d rest hd =>
          rw [List.cons_append, List.cons_append, splitFraction, if_pos hd,
            List.takeWhile_cons_of_pos hd] at h
          cases h
      | case2 | case3 => rfl
  | cons d ds =>
      rw [fractionChars, if_neg (List.cons_ne_nil d ds)] at h ⊢
      simp only [List.cons_append, splitFraction] at h ⊢
      split at h
      · rename_i hd
        obtain ⟨htake, hdrop⟩ := Prod.mk.inj h
        have hrun := run_truncated (List.cons_append ▸ hdrop)
        rw [if_pos hd, hrun.1, hrun.2]
        exact congrArg (·, rest) htake
      · cases h

theorem truncates_split : Truncates split := by
  intro cs tail n rest h
  -- what each part leaves is what the later parts take, and then what is left in the end
  have hfraction := splitFraction_append ((cs ++ tail).dropWhile isDecimalDigit)
  have hexponent := Exponent.split_append
    (splitFraction ((cs ++ tail).dropWhile isDecimalDigit)).2
  simp only [split, Prod.mk.injEq] at h
  obtain ⟨rfl, hrest⟩ := h
  rw [hrest, ← List.append_assoc] at hexponent
  rw [← hexponent, ← List.append_assoc] at hfraction
  obtain ⟨htake, hdrop⟩ := run_truncated hfraction.symm
  have hpoint := truncates_splitFraction _ tail _ _
    ((congrArg splitFraction hfraction).trans (Prod.ext rfl hexponent.symm))
  have hmark := Exponent.truncates_split _ tail _ _
    ((congrArg Exponent.split hexponent).trans (Prod.ext rfl hrest))
  simp only [split, htake, hdrop, hpoint, hmark]

/-- What begins with a number does not end as something else. -/
theorem beginsNumber_append {cs : List Char} (h : beginsNumber cs = true) (tail : List Char) :
    beginsNumber (cs ++ tail) = true := by
  fun_cases beginsNumber cs with
  | case1 d rest => exact h
  | case2 c rest hsingle =>
      have hc : c.isDigit = true := by
        rwa [beginsNumber.eq_2 c rest hsingle] at h
      have hpoint : c ≠ '.' := by
        rintro rfl
        exact absurd hc (by decide)
      rw [List.cons_append, beginsNumber.eq_2 c _ fun _ _ heq _ => hpoint heq]
      exact hc
  | case3 => cases h

/-- A number by itself begins as a number does. -/
theorem beginsNumber_chars {cs : List Char} (h : beginsNumber cs = true) :
    beginsNumber (split cs).1.chars = true := by
  fun_cases beginsNumber cs with
  | case1 d rest =>
      have hpoint : isDecimalDigit '.' = false := isDecimalDigit_continuation '.' (by decide)
      have hd : d.isDigit = true := h
      have hchars : (split ('.' :: d :: rest)).1.chars =
          '.' :: d :: (rest.takeWhile isDecimalDigit ++ ((Exponent.split
            (rest.dropWhile isDecimalDigit)).1.map Exponent.chars).getD []) := by
        simp [chars, split, hpoint, splitFraction, isDecimalDigit_of_isDigit hd, fractionChars]
      rw [hchars]
      exact hd
  | case2 c rest hsingle =>
      have hc : c.isDigit = true := by
        rwa [beginsNumber.eq_2 c rest hsingle] at h
      have hchars : (split (c :: rest)).1.chars = [c] ++
          ((split (c :: rest)).1.chars.tail) := by
        simp [chars, split, isDecimalDigit_of_isDigit hc]
      have hdigit : beginsNumber [c] = true := by
        rwa [beginsNumber.eq_2 c [] fun _ _ _ hnil => List.cons_ne_nil _ _ hnil.symm]
      rw [hchars]
      exact beginsNumber_append hdigit _
  | case3 => cases h

end Numeral

/-! ### Cut lexemes -/

section Cut

variable {kind : TokenClass} {c : Char} {cs text rest tail : List Char}

theorem scanString_truncated {quote : Char}
    (h : scanString quote (cs ++ tail) = .token kind text (rest ++ tail)) :
    scanString quote cs = .token kind text rest := by
  unfold scanString at h
  split at h
  · rename_i body after hsplit
    cases h
    have happend := Quoted.split_append hsplit
    rw [← List.cons_append] at happend
    rw [eq_append_of_cut happend, scanString, Quoted.split_closed hsplit]
  · cases h

theorem scanBracketed_truncated
    (h : scanBracketed (cs ++ tail) = .token kind text (rest ++ tail)) :
    scanBracketed cs = .token kind text rest := by
  unfold scanBracketed at h
  split at h
  · rename_i body after hextent
    cases h
    have happend := Bracketed.extent_closed_append hextent
    rw [← List.cons_append] at happend
    rw [eq_append_of_cut happend, scanBracketed, Bracketed.extent_closed hextent]
  · cases h
  · cases h

theorem scanNumber_truncated (h : scanNumber (cs ++ tail) = .token kind text (rest ++ tail)) :
    text = (Numeral.split (cs ++ tail)).1.chars ∧ scanNumber cs = .token kind text rest := by
  unfold scanNumber at h
  dsimp only at h
  split at h
  · rename_i value hvalue
    injection h with hkind htext hrest
    have hcut := Numeral.truncates_split cs tail _ _ (Prod.ext rfl hrest)
    refine ⟨htext.symm, ?_⟩
    simp only [scanNumber, hcut, hvalue, hkind, htext]
  · cases h

theorem scanWord_truncated (h : scanWord c (cs ++ tail) = .token kind text (rest ++ tail)) :
    scanWord c cs = .token kind text rest := by
  injection h with hkind htext hrest
  obtain ⟨htake, hdrop⟩ := run_truncated hrest
  rw [scanWord, htake, hdrop, ← hkind, ← htext]

/-- **A lexeme in front of less** is scanned as it is before anything else. -/
theorem scan_truncated (h : scan c (cs ++ tail) = .token kind text (rest ++ tail)) :
    scan c cs = .token kind text rest := by
  have happend := (scan_token_append h).1
  rw [← List.cons_append] at happend
  have hcs := eq_append_of_cut happend
  refine scan_eq_token_iff.mpr ?_
  cases scan_eq_token_iff.mp h with
  | sign hsymbol =>
      rw [← List.cons_append] at hsymbol
      exact .sign (symbol?_truncated_of_some hsymbol)
  | string hsymbol hquote hlexeme =>
      exact .string (symbol?_truncated_of_none hsymbol) hquote (scanString_truncated hlexeme)
  | bracketed hbracket hlexeme => exact .bracketed hbracket (scanBracketed_truncated hlexeme)
  | number hsymbol hplain hbegins hlexeme =>
      rw [← List.cons_append] at hlexeme
      obtain ⟨htext, hcut⟩ := scanNumber_truncated hlexeme
      have hfront := Numeral.beginsNumber_chars hbegins
      rw [← List.cons_append, ← htext] at hfront
      refine .number (symbol?_truncated_of_none hsymbol) hplain ?_ hcut
      rw [hcs]
      exact Numeral.beginsNumber_append hfront rest
  | word hsymbol hplain hnumber hbegins hlexeme =>
      refine .word (symbol?_truncated_of_none hsymbol) hplain ?_ hbegins
        (scanWord_truncated hlexeme)
      refine Bool.eq_false_iff.mpr fun hfront => ?_
      exact Bool.eq_false_iff.mp hnumber (Numeral.beginsNumber_append hfront tail)

/-- **A lexeme by itself** is scanned as it is before anything else. -/
theorem scan_alone (h : scan c cs = .token kind text rest) :
    ∃ tail, text = c :: tail ∧ scan c tail = .token kind text [] := by
  obtain ⟨happend, hne⟩ := scan_token_append h
  cases text with
  | nil => exact absurd rfl hne
  | cons d tail =>
      obtain ⟨rfl, rfl⟩ := List.cons.inj happend
      exact ⟨tail, rfl, scan_truncated h⟩

end Cut

/-- A token is scanned from its text alone. -/
theorem scan_of_mem_tokenize (source : String) :
    ∀ token ∈ (tokenize source).tokens, ∃ c cs, token.text.toList = c :: cs ∧
      scan c cs = .token token.kind token.text.toList [] := by
  refine Cursor.tokens_induct (motive := fun _ _ scanned => ∀ token ∈ scanned.tokens,
    ∃ c cs, token.text.toList = c :: cs ∧
      scan c cs = .token token.kind token.text.toList []) ?_ ?_ ?_ 0 source.toList
  · exact fun _ _ htoken => absurd htoken List.not_mem_nil
  · exact fun _ _ _ _ htoken => absurd htoken List.not_mem_nil
  · intro offset blank cs text rest c kind others _ _ hscan ih
    refine List.forall_mem_cons.mpr ⟨?_, ih⟩
    obtain ⟨tail, htext, halone⟩ := scan_alone hscan
    have hchars : (lexedToken kind text (offset + byteLength blank)).text.toList = text :=
      String.toList_ofList
    exact ⟨c, tail, hchars.trans htext, by rw [hchars]; exact halone⟩

end QueryFormula
