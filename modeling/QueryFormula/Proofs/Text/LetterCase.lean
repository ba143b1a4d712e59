import QueryFormula.Span
import QueryFormula.Text.Blank
import QueryFormula.Text.Numeric

/-!
# The case of letters

Two texts have the same letters (`SameLetters`) if they differ at most in the case of ASCII
letters.  They are of one length, in characters and in bytes, and a class of characters that
does not tell a capital from its small letter (`IgnoresCase`) cuts them at one place.
-/

namespace QueryFormula

/-! ### Capitals -/

/-- The ASCII capitals. -/
def capitals : List Char :=
  (List.range 26).map fun n => Char.ofNat ('A'.toNat + n)

theorem mem_capitals_of_isUpper {c : Char} (h : c.isUpper = true) : c ∈ capitals := by
  have hrange : 65 ≤ c.toNat ∧ c.toNat ≤ 90 := of_decide_eq_true h
  refine List.mem_map.mpr ⟨c.toNat - 65, List.mem_range.mpr (by omega), ?_⟩
  rw [show 'A'.toNat = 65 from rfl, Nat.add_sub_cancel' hrange.1, Char.ofNat_toNat]

/-- What is true of all capitals is true of a capital. -/
theorem of_isUpper {p : Char → Bool} (h : capitals.all p = true) {c : Char}
    (hc : c.isUpper = true) : p c = true :=
  List.all_eq_true.mp h c (mem_capitals_of_isUpper hc)

/-- What is no capital is its own small letter. -/
theorem toLower_of_not_isUpper {c : Char} (h : c.isUpper = false) : c.toLower = c :=
  dif_neg (of_decide_eq_false h)

/-- A sign is not the small letter of a capital. -/
theorem eq_of_toLower_eq {c c' : Char} (h : c.toLower = c'.toLower) (hsign : c.isAlpha = false) :
    c' = c := by
  have hsmall : capitals.all (·.toLower.isAlpha) = true := by decide
  obtain ⟨hcapital, -⟩ := Bool.or_eq_false_iff.mp hsign
  rw [toLower_of_not_isUpper hcapital] at h
  cases hcapital' : c'.isUpper with
  | true =>
      have halpha := of_isUpper hsmall hcapital'
      rw [← h, hsign] at halpha
      cases halpha
  | false => rw [h, toLower_of_not_isUpper hcapital']

/-! ### Classes of characters -/

/-- The function does not tell a capital from its small letter. -/
def IgnoresCase {α : Type} (f : Char → α) : Prop :=
  ∀ c : Char, f c.toLower = f c

/-- Only the capitals need to be looked at. -/
theorem ignoresCase_of_capitals {α : Type} [DecidableEq α] {f : Char → α}
    (h : capitals.all (fun c => f c.toLower == f c) = true) : IgnoresCase f := by
  intro c
  cases hcapital : c.isUpper with
  | true => exact beq_iff_eq.mp (of_isUpper h hcapital)
  | false => rw [toLower_of_not_isUpper hcapital]

theorem ignoresCase_isBlank : IgnoresCase isBlank :=
  ignoresCase_of_capitals (by decide)

theorem ignoresCase_isDigit : IgnoresCase Char.isDigit :=
  ignoresCase_of_capitals (by decide)

theorem ignoresCase_isDecimalDigit : IgnoresCase isDecimalDigit :=
  ignoresCase_of_capitals (by decide)

theorem ignoresCase_utf8Size : IgnoresCase Char.utf8Size :=
  ignoresCase_of_capitals (by decide)

/-- What ignores case answers alike for one letter in both cases. -/
theorem IgnoresCase.congr {α : Type} {f : Char → α} (hf : IgnoresCase f) {c c' : Char}
    (h : c.toLower = c'.toLower) : f c' = f c := by
  rw [← hf c, h, hf c']

/-- Digits have no case. -/
theorem toLower_of_isDecimalDigit {c : Char} (h : isDecimalDigit c = true) : c.toLower = c := by
  have hcapitals : capitals.all (!isDecimalDigit ·) = true := by decide
  refine toLower_of_not_isUpper (Bool.eq_false_iff.mpr fun hcapital => ?_)
  have hno := of_isUpper hcapitals hcapital
  rw [h] at hno
  cases hno

/-! ### Texts -/

/-- The texts differ at most in the case of ASCII letters. -/
def SameLetters (cs cs' : List Char) : Prop :=
  cs.map Char.toLower = cs'.map Char.toLower

namespace SameLetters

variable {as as' bs bs' cs cs' : List Char} {c c' : Char}

theorem refl (cs : List Char) : SameLetters cs cs := rfl

theorem symm (h : SameLetters cs cs') : SameLetters cs' cs := Eq.symm h

theorem length_eq (h : SameLetters cs cs') : cs'.length = cs.length := by
  simpa using (congrArg List.length h).symm

theorem cons_iff :
    SameLetters (c :: cs) (c' :: cs') ↔ c.toLower = c'.toLower ∧ SameLetters cs cs' := by
  simp [SameLetters]

theorem byteLength_eq (h : SameLetters cs cs') : byteLength cs' = byteLength cs := by
  have hlower : ∀ cs : List Char, byteLength (cs.map Char.toLower) = byteLength cs := by
    intro cs
    induction cs with
    | nil => rfl
    | cons c cs ih => simp [ignoresCase_utf8Size c, ih]
  rw [← hlower cs', ← h, hlower cs]

theorem of_cons (h : SameLetters (c :: cs) cs') :
    ∃ c' rest, cs' = c' :: rest ∧ c.toLower = c'.toLower ∧ SameLetters cs rest := by
  cases cs' with
  | nil => cases h
  | cons c' rest => exact ⟨c', rest, rfl, cons_iff.mp h⟩

/-- A sign at the front stays. -/
theorem of_sign (h : SameLetters (c :: cs) cs') (hsign : c.isAlpha = false) :
    ∃ rest, cs' = c :: rest ∧ SameLetters cs rest := by
  obtain ⟨c', rest, rfl, hc, hrest⟩ := h.of_cons
  exact ⟨rest, by rw [eq_of_toLower_eq hc hsign], hrest⟩

/-- A sign that is missing at the front stays missing. -/
theorem not_sign (h : SameLetters cs cs') (hsign : c.isAlpha = false)
    (hmissing : ∀ rest, cs = c :: rest → False) : ∀ rest, cs' = c :: rest → False := by
  rintro rest rfl
  obtain ⟨rest, rfl, -⟩ := h.symm.of_sign hsign
  exact hmissing rest rfl

theorem append (has : SameLetters as as') (hbs : SameLetters bs bs') :
    SameLetters (as ++ bs) (as' ++ bs') := by
  rw [SameLetters, List.map_append, List.map_append, has, hbs]

theorem takeWhile {p : Char → Bool} (hp : IgnoresCase p) (h : SameLetters cs cs') :
    SameLetters (cs.takeWhile p) (cs'.takeWhile p) := by
  have hsame : p ∘ Char.toLower = p := funext hp
  have hcut := congrArg (List.takeWhile p) h
  rwa [List.takeWhile_map, List.takeWhile_map, hsame] at hcut

theorem dropWhile {p : Char → Bool} (hp : IgnoresCase p) (h : SameLetters cs cs') :
    SameLetters (cs.dropWhile p) (cs'.dropWhile p) := by
  have hsame : p ∘ Char.toLower = p := funext hp
  have hcut := congrArg (List.dropWhile p) h
  rwa [List.dropWhile_map, List.dropWhile_map, hsame] at hcut

theorem reverse (h : SameLetters cs cs') : SameLetters cs.reverse cs'.reverse := by
  simp only [SameLetters, List.map_reverse, show cs.map Char.toLower = cs'.map Char.toLower from h]

/-- Digits have no case. -/
theorem takeWhile_digits (h : SameLetters cs cs') :
    cs'.takeWhile isDecimalDigit = cs.takeWhile isDecimalDigit := by
  have hlower : ∀ cs : List Char,
      (cs.takeWhile isDecimalDigit).map Char.toLower = cs.takeWhile isDecimalDigit := by
    intro cs
    have hdigits := List.all_eq_true.mp (List.all_takeWhile (p := isDecimalDigit) (l := cs))
    rw [List.map_congr_left fun c hc => toLower_of_isDecimalDigit (hdigits c hc)]
    exact List.map_id' _
  rw [← hlower cs, ← hlower cs']
  exact (h.takeWhile ignoresCase_isDecimalDigit).symm

/-- The blanks at both ends are cut off alike. -/
theorem trimChars (h : SameLetters cs cs') :
    SameLetters (QueryFormula.trimChars cs) (QueryFormula.trimChars cs') :=
  ((h.dropWhile ignoresCase_isBlank).reverse.dropWhile ignoresCase_isBlank).reverse

end SameLetters

end QueryFormula
