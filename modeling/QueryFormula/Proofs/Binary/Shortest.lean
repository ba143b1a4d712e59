import Mathlib.Algebra.Order.Field.Power
import Mathlib.Algebra.Order.Field.Rat
import Mathlib.Data.List.DropRight
import Mathlib.Tactic.Positivity
import Mathlib.Tactic.Ring
import QueryFormula.Binary.Shortest
import QueryFormula.Proofs.Json.Number

/-!
# The digits of a double

The digits that are written for a double have no leading zero, and those of a magnitude other
than zero are not all zero (`normal_shortest`).  This is so because the decimal grids are looked
through from the place of the first digit on, and no grid from there on is coarser than the
magnitude: both neighbours on the grid are then multiples of its unit that are not zero
(`ne_zero_of_gridPoint?`).
-/

namespace QueryFormula

/-- A power with an integer exponent, as a quotient of two natural powers. -/
theorem zpow_eq_div (base : ℚ) (z : ℤ) : base ^ z = base ^ z.toNat / base ^ (-z).toNat := by
  obtain hz | hz := Int.le_total 0 z
  · have hneg : (-z).toNat = 0 := by omega
    have hpos : ((z.toNat : ℕ) : ℤ) = z := Int.toNat_of_nonneg hz
    rw [hneg, pow_zero, div_one, ← zpow_natCast, hpos]
  · have hpos : z.toNat = 0 := by omega
    have hneg : (((-z).toNat : ℕ) : ℤ) = -z := Int.toNat_of_nonneg (by omega)
    rw [hpos, pow_zero, ← zpow_natCast, hneg, zpow_neg, one_div, inv_inv]

/-- A number lies below the power of ten that has one digit more. -/
theorem lt_pow_length_toDigits (n : ℕ) : n < 10 ^ (Nat.toDigits 10 n).length :=
  (Nat.length_toDigits_le_iff (by decide) Nat.length_toDigits_pos).mp (Nat.le_refl _)

/-- A number is at least the power of ten that has as many digits. -/
theorem pow_length_toDigits_le {n : ℕ} (hn : n ≠ 0) :
    10 ^ ((Nat.toDigits 10 n).length - 1) ≤ n := by
  refine Nat.le_of_not_lt fun hless => ?_
  have hany : 0 < (Nat.toDigits 10 n).length := Nat.length_toDigits_pos
  by_cases hone : (Nat.toDigits 10 n).length = 1
  · rw [hone] at hless
    omega
  · have hshorter := (Nat.length_toDigits_le_iff (by decide) (by omega)).mpr hless
    omega

namespace BinaryParts

/-- The magnitude. -/
def value (x : BinaryParts) : ℚ :=
  x.mantissa * 2 ^ x.exponent

variable {x : BinaryParts}

/-- A power of ten is at most the magnitude if it is so without fractions. -/
theorem pow_le_value {place : ℤ}
    (h : 2 ^ (-x.exponent).toNat * 10 ^ place.toNat ≤
      x.mantissa * 2 ^ x.exponent.toNat * 10 ^ (-place).toNat) :
    (10 : ℚ) ^ place ≤ x.value := by
  have hvalue : x.value =
      (x.mantissa * 2 ^ x.exponent.toNat : ℕ) / (2 ^ (-x.exponent).toNat : ℕ) := by
    rw [value, zpow_eq_div]
    push_cast
    ring
  rw [hvalue, zpow_eq_div, div_le_div_iff₀ (by positivity) (by positivity)]
  have hcross : 10 ^ place.toNat * 2 ^ (-x.exponent).toNat ≤
      x.mantissa * 2 ^ x.exponent.toNat * 10 ^ (-place).toNat := by
    rwa [Nat.mul_comm]
  exact_mod_cast hcross

/-- **The first digit** stands at the leading place or further to the left. -/
theorem pow_leadingPlace_le (hx : x.mantissa ≠ 0) : (10 : ℚ) ^ x.leadingPlace ≤ x.value := by
  unfold leadingPlace
  simp only [Nat.pow_eq]
  split
  · rename_i hguess
    exact pow_le_value hguess
  · refine pow_le_value ?_
    have hnonzero : x.mantissa * 2 ^ x.exponent.toNat ≠ 0 :=
      Nat.mul_ne_zero hx (Nat.ne_of_gt (Nat.pow_pos (by decide)))
    have hlower := pow_length_toDigits_le hnonzero
    have hupper := lt_pow_length_toDigits (2 ^ (-x.exponent).toNat)
    generalize x.mantissa * 2 ^ x.exponent.toNat = num at hlower
    generalize 2 ^ (-x.exponent).toNat = den at hupper
    have hlong : 0 < (Nat.toDigits 10 num).length := Nat.length_toDigits_pos
    generalize (Nat.toDigits 10 num).length = long at hlong hlower
    generalize (Nat.toDigits 10 den).length = short at hupper
    -- the places of both powers are counted without signs
    have hplaces : short + ((long : ℤ) - short - 1).toNat =
        long - 1 + (-((long : ℤ) - short - 1)).toNat := by
      omega
    calc den * 10 ^ ((long : ℤ) - short - 1).toNat
        ≤ 10 ^ short * 10 ^ ((long : ℤ) - short - 1).toNat :=
          Nat.mul_le_mul_right _ (Nat.le_of_lt hupper)
      _ = 10 ^ (long - 1) * 10 ^ (-((long : ℤ) - short - 1)).toNat := by
          rw [← Nat.pow_add, hplaces, Nat.pow_add]
      _ ≤ num * 10 ^ (-((long : ℤ) - short - 1)).toNat := Nat.mul_le_mul_right _ hlower

/-- On a grid that is no coarser than the magnitude, neither neighbour of the magnitude is zero. -/
theorem ne_zero_of_gridPoint? {tie : Tie} {place : ℤ} {k : ℕ} (h : (10 : ℚ) ^ place ≤ x.value)
    (hk : x.gridPoint? tie place = some k) : k ≠ 0 := by
  have hquarters : x.value =
      (4 * x.mantissa * 2 ^ (x.exponent - 2).toNat : ℕ) / (2 ^ (2 - x.exponent).toNat : ℕ) := by
    have hfour : (2 : ℚ) ^ (2 : ℤ) = 4 := rfl
    have hsplit : (2 : ℚ) ^ x.exponent = 2 ^ (x.exponent - 2) * 4 := by
      rw [zpow_sub₀ (by decide), hfour, div_mul_cancel₀ _ (by decide)]
    have hreverse : -(x.exponent - 2) = 2 - x.exponent := by omega
    rw [value, hsplit, zpow_eq_div, hreverse]
    push_cast
    ring
  have hunit : (x.quarterUnit place).2 ≤ 4 * x.mantissa * (x.quarterUnit place).1 := by
    rw [hquarters, zpow_eq_div, div_le_div_iff₀ (by positivity) (by positivity)] at h
    have hcross : 10 ^ place.toNat * 2 ^ (2 - x.exponent).toNat ≤
        4 * x.mantissa * 2 ^ (x.exponent - 2).toNat * 10 ^ (-place).toNat := by
      exact_mod_cast h
    simp only [quarterUnit, Nat.pow_eq]
    rwa [Nat.mul_comm, ← Nat.mul_assoc]
  have hpositive : 0 < (x.quarterUnit place).2 := by
    simp only [quarterUnit, Nat.pow_eq]
    positivity
  have hfirst : 1 ≤ 4 * x.mantissa * (x.quarterUnit place).1 / (x.quarterUnit place).2 := by
    rw [Nat.le_div_iff_mul_le hpositive, Nat.one_mul]
    exact hunit
  -- what is found is the quotient or the next number
  unfold gridPoint? at hk
  grind

end BinaryParts

/-- Digits without a leading zero.  If there is nothing but a zero, it stands before the
point. -/
structure DigitString.Normal (d : DigitString) : Prop where
  whole : Json.IsWhole d.digits
  zero : d.digits = ['0'] → d.exponent = 0

theorem DigitString.normal_zero : Normal ⟨['0'], 0⟩ where
  whole := ⟨List.cons_ne_nil _ _, List.forall_mem_singleton.mpr rfl,
    fun _ h => (List.cons_eq_cons.mp h).2.symm⟩
  zero _ := rfl

namespace BinaryParts

/-- Zeros are dropped from the end of the digits, so the first digit stays. -/
theorem normal_digitString {k : ℕ} (hk : k ≠ 0) (place : ℤ) : (digitString k place).Normal := by
  obtain ⟨c, more, hdigits, hc⟩ := Json.toDigits_head hk
  have hany : (Nat.toDigits 10 k).rdropWhile (· == '0') ≠ [] := by
    intro hnone
    have hzeros := List.rdropWhile_eq_nil_iff.mp hnone c (hdigits ▸ List.mem_cons_self)
    exact hc (beq_iff_eq.mp hzeros)
  have hshort : (digitString k place).digits = (Nat.toDigits 10 k).rdropWhile (· == '0') :=
    if_neg hany
  have hfront : (digitString k place).digits <+: c :: more := by
    rw [hshort, ← hdigits]
    exact List.rdropWhile_prefix _ _
  have hhead : ∀ tail, (digitString k place).digits ≠ '0' :: tail := by
    intro tail htail
    rw [htail] at hfront
    exact hc (List.cons_prefix_cons.mp hfront).1.symm
  refine ⟨⟨hshort ▸ hany, fun d hd => ?_, fun tail htail => absurd htail (hhead tail)⟩,
    fun hzero => absurd hzero (hhead [])⟩
  have hmem : d ∈ Nat.toDigits 10 k := hdigits ▸ hfront.subset hd
  exact (Json.isWhole_toDigits k).digits d hmem

/-- **The digits of a double** have no leading zero. -/
theorem normal_shortest (x : BinaryParts) (tie : Tie) : (x.shortest tie).Normal := by
  unfold shortest
  split
  · exact DigitString.normal_zero
  · rename_i hx
    dsimp only
    generalize hhit : List.findSome? _ (List.range 17) = hit
    cases hit with
    | none => exact DigitString.normal_zero
    | some d =>
        obtain ⟨further, -, hfound⟩ := List.exists_of_findSome?_eq_some hhit
        obtain ⟨k, hk, rfl⟩ := Option.map_eq_some_iff.mp hfound
        have hplace : (10 : ℚ) ^ (x.leadingPlace - further) ≤ x.value :=
          (zpow_le_zpow_right₀ (by decide) (by omega)).trans (pow_leadingPlace_le hx)
        exact normal_digitString (ne_zero_of_gridPoint? hplace hk) _

end BinaryParts

end QueryFormula
