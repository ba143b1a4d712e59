import Mathlib.Algebra.Group.Int.Defs
import Mathlib.Algebra.Group.Nat.Defs
import QueryFormula.Expr.Json
import QueryFormula.Proofs.Token.Alone
import QueryFormula.Token.Scan

/-!
# Integers as decimals

A decimal is an integer `n` if its coefficient is that of `n` with a zero for each place behind
the point (`Decimal.IsInteger`).  Zeros behind the point and a change of sign keep it one, and
normalization brings out `n` itself, so that an integer of 64 bits is seen to be one
(`Decimal.IsInteger.int64?`).

A numeral with any number of zeros in front and of zeros behind the point is one token, and
the decimal it is worth is the integer (`scan_integral`).
-/

namespace QueryFormula

namespace Decimal

/-- The decimal is an integer, to whatever number of places it is written.  Zero may have
either sign. -/
structure IsInteger (x : Decimal) (n : Int) : Prop where
  coefficient : x.coefficient = n.natAbs * 10 ^ x.scale
  negative : x.negative = true → n ≤ 0
  positive : x.negative = false → 0 ≤ n

section Integer

variable {x : Decimal} {n : Int}

theorem IsInteger.negate (h : x.IsInteger n) : x.negate.IsInteger (-n) where
  coefficient := by
    rw [Int.natAbs_neg]
    exact h.coefficient
  negative hsign := by
    have := h.positive (by simpa [Decimal.negate] using hsign)
    omega
  positive hsign := by
    have := h.negative (by simpa [Decimal.negate] using hsign)
    omega

/-- The zeros of an integer are all cut off. -/
theorem cutZeros_pow (coefficient scale : Nat) :
    cutZeros (coefficient * 10 ^ scale) scale = (coefficient, 0) := by
  induction scale with
  | zero => simp [cutZeros]
  | succ scale ih =>
      have hsplit : coefficient * 10 ^ (scale + 1) = coefficient * 10 ^ scale * 10 := by
        rw [Nat.pow_succ, Nat.mul_assoc]
      rw [hsplit, cutZeros, if_pos (Nat.mul_mod_left _ _), Nat.mul_div_cancel _ (by decide), ih]

/-- **Normalization** of an integer leaves no places, and the integer. -/
theorem IsInteger.normalize (h : x.IsInteger n) :
    x.normalize.scale = 0 ∧ x.normalize.numerator = n := by
  have hcut : cutZeros x.coefficient x.scale = (n.natAbs, 0) := by
    rw [h.coefficient, cutZeros_pow]
  refine ⟨congrArg Prod.snd hcut, ?_⟩
  have hcoefficient : x.normalize.coefficient = n.natAbs := congrArg Prod.fst hcut
  rw [numerator, hcoefficient]
  by_cases hzero : x.coefficient = 0
  · have hn : n.natAbs = 0 := by
      have hpower : 10 ^ x.scale ≠ 0 := Nat.ne_of_gt (Nat.pow_pos (by decide))
      exact (Nat.mul_eq_zero.mp (h.coefficient.symm.trans hzero)).resolve_right hpower
    have hsign : x.normalize.negative = false := by simp [Decimal.normalize, hzero]
    rw [hsign]
    simp only [Bool.false_eq_true, if_false]
    omega
  · have hsign : x.normalize.negative = x.negative := by simp [Decimal.normalize, hzero]
    rw [hsign]
    split
    · rename_i hnegative
      have := h.negative hnegative
      omega
    · rename_i hpositive
      have := h.positive (Bool.eq_false_iff.mpr hpositive)
      omega

/-- An integer of 64 bits is seen to be one. -/
theorem IsInteger.int64? (h : x.IsInteger n) (hmin : Int64.minValue.toInt ≤ n)
    (hmax : n ≤ Int64.maxValue.toInt) : x.int64? = some n := by
  obtain ⟨hscale, hnumerator⟩ := h.normalize
  rw [Decimal.int64?, hscale, hnumerator]
  exact if_pos ⟨rfl, hmin, hmax⟩

/-- Zeros behind the point are read, or left out. -/
theorem IsInteger.exists_appendFraction? (h : x.IsInteger n) (places : Nat) :
    ∃ y, x.appendFraction? (List.replicate places '0') = some y ∧ y.IsInteger n := by
  induction places generalizing x with
  | zero => exact ⟨x, rfl, h⟩
  | succ places ih =>
      rw [List.replicate_succ, appendFraction?]
      split
      · rename_i hroom
        refine ih ⟨?_, h.negative, h.positive⟩
        have hzero : '0'.toNat - '0'.toNat = 0 := rfl
        simp only [hzero, Nat.add_zero, h.coefficient, Nat.pow_succ, Nat.mul_assoc]
      · exact ⟨x, rfl, h⟩

end Integer

end Decimal

/-! ### Written integers -/

/-- Zeros, and the digits of a number behind them. -/
def paddedDigits (leading m : Nat) : List Char :=
  List.replicate leading '0' ++ Nat.toDigits 10 m

theorem digitsValue_paddedDigits (leading m : Nat) : digitsValue (paddedDigits leading m) = m := by
  rw [digitsValue, paddedDigits, Nat.ofDigitChars_append, Nat.ofDigitChars_replicate_zero,
    Nat.mul_zero, Nat.ofDigitChars_ten_toDigits]

theorem isDigit_of_mem_paddedDigits {l m : Nat} {c : Char} (hc : c ∈ paddedDigits l m) :
    c.isDigit = true := by
  obtain hc | hc := List.mem_append.mp hc
  · rw [List.eq_of_mem_replicate hc]
    rfl
  · exact Nat.isDigit_of_mem_toDigits (by decide) (by decide) hc

theorem paddedDigits_eq_cons (leading m : Nat) :
    ∃ c cs, paddedDigits leading m = c :: cs ∧ c.isDigit = true := by
  cases hdigits : paddedDigits leading m with
  | nil =>
      obtain ⟨-, hnone⟩ := List.append_eq_nil_iff.mp hdigits
      exact absurd hnone Nat.toDigits_ne_nil
  | cons c cs =>
      have hc : c ∈ paddedDigits leading m := hdigits ▸ List.mem_cons_self
      exact ⟨c, cs, rfl, isDigit_of_mem_paddedDigits hc⟩

namespace Numeral

/-- A number with zeros in front, and so many zeros behind a point. -/
def integral (leading m places : Nat) : Numeral :=
  ⟨paddedDigits leading m, List.replicate places '0', none⟩

/-- Digits, and digits behind a point, are one numeral. -/
theorem split_digits {whole fraction : List Char} (hwhole : ∀ c ∈ whole, isDecimalDigit c = true)
    (hfraction : ∀ c ∈ fraction, isDecimalDigit c = true) :
    split (whole ++ fractionChars fraction) = (⟨whole, fraction, none⟩, []) := by
  have hend : ∀ c ∈ (fractionChars fraction).head?, isDecimalDigit c = false := by
    intro c hc
    unfold fractionChars at hc
    split at hc
    · cases hc
    · cases hc
      rfl
  obtain ⟨htake, hdrop⟩ := run_append hwhole hend
  have hbehind : splitFraction (fractionChars fraction) = (fraction, []) := by
    cases fraction with
    | nil => rfl
    | cons d digits =>
        have hnothing : ∀ c ∈ ([] : List Char).head?, isDecimalDigit c = false := by simp
        obtain ⟨hall, hnone⟩ := run_append hfraction hnothing
        rw [List.append_nil] at hall hnone
        have hd := hfraction d List.mem_cons_self
        rw [fractionChars, if_neg (List.cons_ne_nil d digits), splitFraction, if_pos hd, hall,
          hnone]
  simp only [split, htake, hdrop, hbehind, Exponent.split]

theorem decimal?_integral (leading m places : Nat) (hm : m < coefficientBound) :
    ∃ x, (integral leading m places).decimal? = some x ∧ x.IsInteger m := by
  have hvalue := digitsValue_paddedDigits leading m
  have hbound : digitsValue (paddedDigits leading m) < coefficientBound := by rwa [hvalue]
  have hbase : Decimal.IsInteger ⟨false, digitsValue (paddedDigits leading m), 0, hbound,
      Nat.zero_le _⟩ m := by
    refine ⟨?_, fun hsign => ?_, fun _ => Int.natCast_nonneg m⟩
    · simp [hvalue]
    · exact absurd hsign Bool.false_ne_true
  obtain ⟨x, hx, hinteger⟩ := hbase.exists_appendFraction? places
  refine ⟨x, ?_, hinteger⟩
  simp only [decimal?, integral, Decimal.ofDigits?, dif_pos hbound, hx]
  rfl

theorem isAscii_integral (leading m places : Nat) : (integral leading m places).isAscii = true := by
  have hwhole : (paddedDigits leading m).all Char.isDigit = true :=
    List.all_eq_true.mpr fun _ hc => isDigit_of_mem_paddedDigits hc
  have hfraction : (List.replicate places '0').all Char.isDigit = true := by
    rw [List.all_replicate]
    split <;> rfl
  simp only [isAscii, integral, hwhole, hfraction]
  rfl

end Numeral

/-- What begins with a digit is a number. -/
theorem scan_of_isDigit {c : Char} (hc : c.isDigit = true) (cs : List Char) :
    scan c cs = scanNumber (c :: cs) := by
  have hsymbol : symbol? (c :: cs) = none := by
    have hsigns : operatorSigns.all (fun sign => !sign.isDigit) = true := rfl
    refine symbol?_eq_none_iff.mpr ⟨fun hmem => ?_, ?_⟩
    · have hsign := List.all_eq_true.mp hsigns c hmem
      simp [hc] at hsign
    · rintro rfl
      cases hc
  have hplain : opensDelimited c = false := by
    refine Bool.eq_false_iff.mpr fun hopens => ?_
    obtain (rfl | rfl) | rfl := opensDelimited_iff.mp hopens <;> cases hc
  have hnumber : beginsNumber (c :: cs) = true := by
    have hpoint : c ≠ '.' := by
      rintro rfl
      cases hc
    cases cs <;> simp [beginsNumber, hpoint, hc]
  rw [scan_of_plain hsymbol hplain, if_pos hnumber]

/-- **One token.**  A written integer that a decimal can hold is scanned to its end. -/
theorem scan_integral (leading m places : Nat) (hm : m < coefficientBound) :
    ∃ c cs x, (Numeral.integral leading m places).chars = c :: cs ∧ c.isDigit = true ∧
      scan c cs = .token (.literal (.number x)) (c :: cs) [] ∧ x.IsInteger m := by
  obtain ⟨x, hx, hinteger⟩ := Numeral.decimal?_integral leading m places hm
  obtain ⟨c, digits, hdigits, hc⟩ := paddedDigits_eq_cons leading m
  have hchars : (Numeral.integral leading m places).chars =
      paddedDigits leading m ++ Numeral.fractionChars (List.replicate places '0') :=
    List.append_nil _
  have hfirst : (Numeral.integral leading m places).chars =
      c :: (digits ++ Numeral.fractionChars (List.replicate places '0')) := by
    rw [hchars, hdigits, List.cons_append]
  have hwhole : ∀ d ∈ paddedDigits leading m, isDecimalDigit d = true :=
    fun _ hd => isDecimalDigit_of_isDigit (isDigit_of_mem_paddedDigits hd)
  have hzeros : ∀ d ∈ List.replicate places '0', isDecimalDigit d = true := by
    intro d hd
    rw [List.eq_of_mem_replicate hd]
    rfl
  have hsplit : Numeral.split (Numeral.integral leading m places).chars =
      (Numeral.integral leading m places, []) := by
    rw [hchars]
    exact Numeral.split_digits hwhole hzeros
  have hvalue : (Numeral.integral leading m places).value? = some (.number x) := by
    rw [Numeral.value?, if_pos (Numeral.isAscii_integral leading m places), hx]
  refine ⟨c, _, x, hfirst, hc, ?_, hinteger⟩
  rw [scan_of_isDigit hc, ← hfirst, scanNumber, hsplit]
  simp only [hvalue]

end QueryFormula
