import Mathlib.Data.List.TakeWhile
import QueryFormula.Json.Reading
import QueryFormula.Proofs.Text.Runs

/-!
# Numbers in front of other text

A number is read to its end and no further, if what stands behind it begins as nothing in a
number does (`splitNumber_append`).  A number is put together from digits without a leading
zero, a fraction and an exponent (`isNumber_of_parts`); so integers are written as numbers
(`isNumber_ofInt`).
-/

namespace QueryFormula.Json

/-! ### What may stand behind a value -/

/-- The character ends a value that stands in front of it. -/
def isDelimiter (c : Char) : Bool :=
  isGap c || c = ',' || c = ']' || c = '}'

/-- The text is empty or begins with a delimiter. -/
def Ends (rest : List Char) : Prop :=
  ∀ c ∈ rest.head?, isDelimiter c = true

theorem ends_nil : Ends [] :=
  fun _ h => by cases h

theorem ends_cons {c : Char} (h : isDelimiter c = true) (rest : List Char) : Ends (c :: rest) :=
  fun _ hd => by cases hd; exact h

/-- What is no delimiter does not stand in front. -/
theorem Ends.ne_cons {rest : List Char} (h : Ends rest) {c : Char} (hc : isDelimiter c = false)
    (more : List Char) : rest ≠ c :: more := by
  intro hrest
  cases hc.symm.trans (h c (hrest ▸ rfl))

/-- What is no delimiter stands in front only if it did so before. -/
theorem Ends.append_ne_cons {rest : List Char} (h : Ends rest) {c : Char}
    (hc : isDelimiter c = false) {cs : List Char} (hcs : ∀ more, cs ≠ c :: more)
    (more : List Char) : cs ++ rest ≠ c :: more := by
  cases cs with
  | nil => exact h.ne_cons hc more
  | cons d cs =>
      intro hd
      cases hd
      exact hcs cs rfl

theorem isDelimiter_of_isDigit {c : Char} (h : c.isDigit = true) : isDelimiter c = false := by
  refine Bool.eq_false_iff.mpr fun hc => ?_
  simp only [isDelimiter, isGap, Bool.or_eq_true, decide_eq_true_eq] at hc
  rcases hc with (((((rfl | rfl) | rfl) | rfl) | rfl) | rfl) | rfl <;> cases h

/-! ### The parts of a number -/

/-- The sign of an exponent. -/
def splitSign : List Char → List Char × List Char
  | '+' :: tail => (['+'], tail)
  | '-' :: tail => (['-'], tail)
  | tail => ([], tail)

theorem splitExponent_cons (mark : Char) (cs : List Char) :
    splitExponent (mark :: cs) =
      if mark = 'e' ∨ mark = 'E' then
        match splitDigits (splitSign cs).2 with
        | ([], _) => ([], mark :: cs)
        | (digits, after) => (mark :: ((splitSign cs).1 ++ digits), after)
      else ([], mark :: cs) :=
  rfl

section Append

variable {rest : List Char} (hrest : Ends rest)
include hrest

theorem splitDigits_append (cs : List Char) :
    splitDigits (cs ++ rest) = ((splitDigits cs).1, (splitDigits cs).2 ++ rest) := by
  induction cs with
  | nil =>
      cases rest with
      | nil => rfl
      | cons c more =>
          have hc : ¬c.isDigit = true := fun h =>
            hrest.ne_cons (isDelimiter_of_isDigit h) more rfl
          rw [splitDigits, List.nil_append, List.takeWhile_cons_of_neg hc,
            List.dropWhile_cons_of_neg hc]
          rfl
  | cons c cs ih =>
      by_cases hc : c.isDigit = true
      · rw [splitDigits, Prod.mk.injEq] at ih
        simp only [splitDigits, List.cons_append, List.takeWhile_cons_of_pos hc,
          List.dropWhile_cons_of_pos hc, ih]
      · simp only [splitDigits, List.cons_append, List.takeWhile_cons_of_neg hc,
          List.dropWhile_cons_of_neg hc]

theorem splitWhole_append (cs : List Char) :
    splitWhole (cs ++ rest) = ((splitWhole cs).1, (splitWhole cs).2 ++ rest) := by
  by_cases hzero : ∃ more, cs = '0' :: more
  · obtain ⟨more, rfl⟩ := hzero
    rfl
  · have hcs := not_exists.mp hzero
    rw [splitWhole.eq_2 _ (hrest.append_ne_cons rfl hcs), splitWhole.eq_2 _ hcs]
    exact splitDigits_append hrest cs

theorem splitFraction_append (cs : List Char) :
    splitFraction (cs ++ rest) = ((splitFraction cs).1, (splitFraction cs).2 ++ rest) := by
  by_cases hpoint : ∃ more, cs = '.' :: more
  · obtain ⟨more, rfl⟩ := hpoint
    rw [List.cons_append, splitFraction, splitFraction, splitDigits_append hrest]
    rcases splitDigits more with ⟨_ | ⟨digit, digits⟩, after⟩ <;> rfl
  · have hcs := not_exists.mp hpoint
    rw [splitFraction.eq_2 _ (hrest.append_ne_cons rfl hcs), splitFraction.eq_2 _ hcs]

theorem splitSign_append (cs : List Char) :
    splitSign (cs ++ rest) = ((splitSign cs).1, (splitSign cs).2 ++ rest) := by
  by_cases hplus : ∃ more, cs = '+' :: more
  · obtain ⟨more, rfl⟩ := hplus
    rfl
  · by_cases hminus : ∃ more, cs = '-' :: more
    · obtain ⟨more, rfl⟩ := hminus
      rfl
    · have hplus := not_exists.mp hplus
      have hminus := not_exists.mp hminus
      rw [splitSign.eq_3 _ hplus hminus, splitSign.eq_3 _ (hrest.append_ne_cons rfl hplus)
        (hrest.append_ne_cons rfl hminus)]

theorem splitExponent_append (cs : List Char) :
    splitExponent (cs ++ rest) = ((splitExponent cs).1, (splitExponent cs).2 ++ rest) := by
  cases cs with
  | nil =>
      cases rest with
      | nil => rfl
      | cons c more =>
          have hmark : ¬(c = 'e' ∨ c = 'E') := by
            rintro (rfl | rfl) <;> exact hrest.ne_cons rfl more rfl
          rw [List.nil_append, splitExponent_cons, if_neg hmark]
          rfl
  | cons mark cs =>
      rw [List.cons_append, splitExponent_cons, splitExponent_cons]
      by_cases hmark : mark = 'e' ∨ mark = 'E'
      · rw [if_pos hmark, if_pos hmark, splitSign_append hrest, splitDigits_append hrest]
        rcases splitDigits (splitSign cs).2 with ⟨_ | ⟨digit, digits⟩, after⟩ <;> rfl
      · rw [if_neg hmark, if_neg hmark]
        rfl

theorem splitMagnitude_append (cs : List Char) :
    splitMagnitude (cs ++ rest) = ((splitMagnitude cs).1, (splitMagnitude cs).2 ++ rest) := by
  simp only [splitMagnitude, splitWhole_append hrest, splitFraction_append hrest,
    splitExponent_append hrest]

/-- **A number in front of other text** is read as it is read alone. -/
theorem splitNumber_append (cs : List Char) :
    splitNumber (cs ++ rest) = ((splitNumber cs).1, (splitNumber cs).2 ++ rest) := by
  by_cases hsign : ∃ more, cs = '-' :: more
  · obtain ⟨more, rfl⟩ := hsign
    rw [List.cons_append, splitNumber, splitNumber, splitWhole_append hrest,
      splitMagnitude_append hrest]
    rcases splitWhole more with ⟨_ | ⟨digit, digits⟩, after⟩ <;> rfl
  · have hcs := not_exists.mp hsign
    rw [splitNumber.eq_2 _ (hrest.append_ne_cons rfl hcs), splitNumber.eq_2 _ hcs,
      splitWhole_append hrest, splitMagnitude_append hrest]
    rcases splitWhole cs with ⟨_ | ⟨digit, digits⟩, after⟩ <;> rfl

end Append

/-! ### Texts that are numbers -/

/-- All of the text is a number. -/
def IsNumber (text : List Char) : Prop :=
  text ≠ [] ∧ splitNumber text = (text, [])

/-- A number begins with a digit or its sign. -/
theorem IsNumber.head {text : List Char} (h : IsNumber text) :
    ∃ c more, text = c :: more ∧ (c = '-' ∨ c.isDigit = true) := by
  obtain ⟨hany, hsplit⟩ := h
  cases text with
  | nil => exact absurd rfl hany
  | cons c more =>
      refine ⟨c, more, rfl, ?_⟩
      by_cases hc : c.isDigit = true
      · exact .inr hc
      · by_cases hsign : c = '-'
        · exact .inl hsign
        · have hwhole : splitWhole (c :: more) = ([], c :: more) := by
            rw [splitWhole.eq_2 _ (fun _ h => by cases h; exact hc rfl), splitDigits,
              List.takeWhile_cons_of_neg hc, List.dropWhile_cons_of_neg hc]
          rw [splitNumber.eq_2 _ (fun _ h => by cases h; exact hsign rfl), hwhole] at hsplit
          cases hsplit

/-- Digits without a leading zero. -/
structure IsWhole (text : List Char) : Prop where
  any : text ≠ []
  digits : ∀ c ∈ text, c.isDigit = true
  zero : ∀ more, text = '0' :: more → more = []

/-- No digit stands in front. -/
def EndsDigits (rest : List Char) : Prop :=
  ∀ c ∈ rest.head?, c.isDigit = false

theorem endsDigits_nil : EndsDigits [] :=
  fun _ h => by cases h

theorem endsDigits_cons {c : Char} (h : c.isDigit = false) (rest : List Char) :
    EndsDigits (c :: rest) :=
  fun _ hd => by cases hd; exact h

theorem IsWhole.splitWhole_append {digits rest : List Char} (h : IsWhole digits)
    (hrest : EndsDigits rest) : splitWhole (digits ++ rest) = (digits, rest) := by
  by_cases hzero : ∃ more, digits = '0' :: more
  · obtain ⟨more, rfl⟩ := hzero
    rw [h.zero more rfl]
    rfl
  · have hnonzero : ∀ more, digits ++ rest ≠ '0' :: more := by
      intro more hdigits
      cases digits with
      | nil => exact h.any rfl
      | cons c digits =>
          cases hdigits
          exact hzero ⟨digits, rfl⟩
    obtain ⟨htake, hdrop⟩ := run_append h.digits hrest
    rw [splitWhole.eq_2 _ hnonzero, splitDigits, htake, hdrop]

/-- A text that is nothing, or a point with digits behind it. -/
def IsFraction (fraction : List Char) : Prop :=
  fraction = [] ∨ ∃ digits, fraction = '.' :: digits ∧ digits ≠ [] ∧
    ∀ c ∈ digits, c.isDigit = true

/-- A text that is nothing, or an exponent with its sign. -/
def IsExponent (exponent : List Char) : Prop :=
  exponent = [] ∨ ∃ sign digits, exponent = 'e' :: sign :: digits ∧ (sign = '+' ∨ sign = '-') ∧
    digits ≠ [] ∧ ∀ c ∈ digits, c.isDigit = true

theorem IsExponent.endsDigits {exponent : List Char} (h : IsExponent exponent) :
    EndsDigits exponent := by
  obtain rfl | ⟨sign, digits, rfl, -⟩ := h
  · exact endsDigits_nil
  · exact endsDigits_cons rfl _

theorem IsFraction.endsDigits {fraction exponent : List Char} (h : IsFraction fraction)
    (hexponent : IsExponent exponent) : EndsDigits (fraction ++ exponent) := by
  obtain rfl | ⟨digits, rfl, -⟩ := h
  · exact hexponent.endsDigits
  · exact endsDigits_cons rfl _

theorem IsFraction.splitFraction_append {fraction exponent : List Char} (h : IsFraction fraction)
    (hexponent : IsExponent exponent) :
    splitFraction (fraction ++ exponent) = (fraction, exponent) := by
  obtain rfl | ⟨digits, rfl, hany, hdigits⟩ := h
  · obtain rfl | ⟨sign, digits, rfl, -⟩ := hexponent <;> rfl
  · obtain ⟨htake, hdrop⟩ := run_append hdigits hexponent.endsDigits
    rw [List.cons_append, splitFraction, splitDigits, htake, hdrop]
    cases digits with
    | nil => exact absurd rfl hany
    | cons c digits => rfl

theorem IsExponent.splitExponent_eq {exponent : List Char} (h : IsExponent exponent) :
    splitExponent exponent = (exponent, []) := by
  obtain rfl | ⟨sign, digits, rfl, hsign, hany, hdigits⟩ := h
  · rfl
  · obtain ⟨htake, hdrop⟩ := run_append hdigits endsDigits_nil
    rw [List.append_nil] at htake hdrop
    have htail : splitSign (sign :: digits) = ([sign], digits) := by
      obtain rfl | rfl := hsign <;> rfl
    rw [splitExponent_cons, if_pos (.inl rfl), htail, splitDigits, htake, hdrop]
    cases digits with
    | nil => exact absurd rfl hany
    | cons c digits => rfl

/-- **A number** is put together from digits without a leading zero, a fraction and an
exponent, behind a sign or without one. -/
theorem isNumber_of_parts {whole fraction exponent : List Char} (hwhole : IsWhole whole)
    (hfraction : IsFraction fraction) (hexponent : IsExponent exponent) :
    IsNumber (whole ++ (fraction ++ exponent)) ∧
      IsNumber ('-' :: (whole ++ (fraction ++ exponent))) := by
  have hsplit := hwhole.splitWhole_append (hfraction.endsDigits hexponent)
  have hmagnitude : splitMagnitude (whole ++ (fraction ++ exponent)) =
      (whole ++ (fraction ++ exponent), []) := by
    rw [splitMagnitude, hsplit]
    simp only [hfraction.splitFraction_append hexponent, hexponent.splitExponent_eq,
      List.append_assoc]
  cases whole with
  | nil => exact absurd rfl hwhole.any
  | cons c more =>
      have hsign : ∀ tail, c :: more ++ (fraction ++ exponent) ≠ '-' :: tail := by
        intro tail htail
        cases htail
        cases hwhole.digits '-' List.mem_cons_self
      refine ⟨⟨List.cons_ne_nil _ _, ?_⟩, List.cons_ne_nil _ _, ?_⟩
      · rw [splitNumber.eq_2 _ hsign, hsplit]
        exact hmagnitude
      · rw [splitNumber, hsplit]
        change ('-' :: (splitMagnitude (c :: more ++ (fraction ++ exponent))).1, _) = _
        rw [hmagnitude]

/-- The digits of a number have no leading zero. -/
theorem toDigits_head {n : Nat} (hn : n ≠ 0) :
    ∃ c more, Nat.toDigits 10 n = c :: more ∧ c ≠ '0' := by
  induction n using Nat.strongRecOn with
  | ind n ih =>
      rw [Nat.toDigits_eq_if (by decide)]
      split
      · rename_i hsmall
        have hdigit : ∀ n < 10, n ≠ 0 → Nat.digitChar n ≠ '0' := by decide
        exact ⟨_, _, rfl, hdigit n hsmall hn⟩
      · rename_i hlarge
        obtain ⟨c, more, hdigits, hc⟩ := ih (n / 10) (by omega) (by omega)
        exact ⟨c, _, by rw [hdigits, List.cons_append], hc⟩

theorem isWhole_toDigits (n : Nat) : IsWhole (Nat.toDigits 10 n) where
  any := Nat.toDigits_ne_nil
  digits c hc := Nat.isDigit_of_mem_toDigits (by decide) (by decide) hc
  zero more hmore := by
    by_cases hn : n = 0
    · subst hn
      cases hmore
      rfl
    · obtain ⟨c, tail, hdigits, hc⟩ := toDigits_head hn
      cases hdigits.symm.trans hmore
      exact absurd rfl hc

/-- **Integers are written as numbers.** -/
theorem isNumber_ofInt (n : Int) :
    IsNumber ((if n < 0 then ['-'] else []) ++ Nat.toDigits 10 n.natAbs) := by
  obtain ⟨hplain, hsigned⟩ := isNumber_of_parts (isWhole_toDigits n.natAbs) (.inl rfl) (.inl rfl)
  rw [List.append_nil, List.append_nil] at hplain hsigned
  split
  · exact hsigned
  · exact hplain

end QueryFormula.Json
