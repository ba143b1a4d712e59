import QueryFormula.Decimal.Binary
import QueryFormula.Proofs.Binary.Magnitude

/-!
# Decimals are finite as doubles

The double of a decimal is computed in steps that each round.  No step leaves the finite
numbers: a coefficient lies below `2 ^ 96`, there are at most 28 places, so the powers of ten
that are multiplied and divided by lie between `1` and `2 ^ 94`, and every operation adds a few
bits at most (`FloatBelow`).  Hence `Decimal.isFinite_toDouble`.
-/

namespace QueryFormula

open Float.Model

/-! ### Computing with floats -/

/-- The float is a finite number with a magnitude below `2 ^ k`. -/
def FloatBelow (k : Int) (x : Float) : Prop :=
  MagnitudeBelow k x.toModel.unpack

section Operations

variable {k l : Int} {x y : Float}

theorem FloatBelow.mono (h : FloatBelow k x) (hkl : k ≤ l) : FloatBelow l x :=
  MagnitudeBelow.mono h hkl

theorem FloatBelow.neg (h : FloatBelow k x) (hk : -1022 ≤ k) (hk' : k ≤ 972) :
    FloatBelow k (-x) :=
  (MagnitudeBelow.neg h).unpack_pack hk hk'

theorem FloatBelow.mul (hx : FloatBelow k x) (hy : FloatBelow l y) (hkl : -1022 ≤ k + l)
    (hkl' : k + l ≤ 971) : FloatBelow (k + l + 1) (x * y) :=
  (MagnitudeBelow.mul hx hy (by omega)).unpack_pack (by omega) (by omega)

theorem FloatBelow.add (hx : FloatBelow k x) (hy : FloatBelow l y) (hkl : -1022 ≤ max k l)
    (hkl' : max k l ≤ 970) : FloatBelow (max k l + 2) (x + y) :=
  (MagnitudeBelow.add hx hy (by omega)).unpack_pack (by omega) (by omega)

theorem FloatBelow.div (hx : FloatBelow k x) (hy : AtLeastOne y.toModel.unpack)
    (hk : -1022 ≤ k) (hk' : k ≤ 971) : FloatBelow (k + 1) (x / y) :=
  (MagnitudeBelow.div hx hy (by omega)).unpack_pack (by omega) (by omega)

theorem floatBelow_toFloat {n : Nat} (hn : n < 2 ^ 64) :
    FloatBelow (n.log2 + 2) n.toUInt64.toFloat := by
  have hword : n.toUInt64.toNat = n := UInt64.toNat_ofNat_of_lt' hn
  have hlog : n.log2 < 64 := log2_lt_of_lt hn (by decide)
  have htotal : totalExponent (n : Int).natAbs 0 = n.log2 + 1 := by
    rw [totalExponent, Int.natAbs_natCast, Int.add_zero]
  change FloatBelow _ (.ofModel (.pack (UnpackedFloat.ofNat .binary64 n.toUInt64.toNat)))
  rw [hword]
  refine MagnitudeBelow.unpack_pack ?_ (by omega) (by omega)
  exact (magnitudeBelow_normalize (Int.le_of_eq htotal) (by omega)).mono (by omega)

theorem magnitudeBelow_ofScientific (n : Nat) :
    MagnitudeBelow (n.log2 + 3) (UnpackedFloat.ofScientific .binary64 n 0) := by
  unfold UnpackedFloat.ofScientific
  by_cases hn : n = 0
  · rw [dif_pos hn]
    exact .zero _
  · rw [dif_neg hn, if_neg (by decide), if_neg (by change ¬(0 : Int) < -(2048 + n.log2); omega),
      if_pos (by decide)]
    have hshift := log2_shiftLeft_le n 53
    refine (MagnitudeBelow.mul (k := n.log2 + 1) (l := 1) (.finite ?_) (.finite (by decide))
      (by omega)).mono (by omega)
    change ((n <<< 53).log2 : Int) + 1 + -53 ≤ _
    omega

/-- An integer is converted by a multiplication with one if it has at most 53 bits, else by one
with a power of ten, the zeroth. -/
theorem floatBelow_ofNat {n : Nat} (h : n.log2 + 4 ≤ k) (hk : k ≤ 972) :
    FloatBelow k (Float.ofNat n) := by
  unfold Float.ofNat
  change FloatBelow k (Float.ofScientific n false 0)
  unfold Float.ofScientific
  split
  · rename_i hsmall
    have hinteger := floatBelow_toFloat (Nat.lt_trans hsmall.1 (by decide))
    have hone : FloatBelow 1 (Float.ofBits 0x3FF0000000000000) := by
      unfold FloatBelow
      decide +kernel
    exact (hinteger.mul hone (by omega) (by omega)).mono (by omega)
  · exact ((magnitudeBelow_ofScientific n).mono (by omega)).unpack_pack (by omega) hk

end Operations

/-! ### The bits of a float -/

theorem magnitude_div_hiddenBit (x : Float) :
    (Double.ofFloat x).magnitude / BinaryParts.hiddenBit =
      storedExponent x.toModel.toBits.toBitVec := by
  rw [storedExponent_eq]
  change x.toModel.toBits.toNat % 2 ^ 63 / 2 ^ 52 = x.toModel.toBits.toNat / 2 ^ 52 % 2 ^ 11
  omega

theorem FloatBelow.magnitude_lt {k : Int} {x : Float} (h : FloatBelow k x) (hk : -1022 ≤ k) :
    (Double.ofFloat x).magnitude < Double.infinity ∧
      ((Double.ofFloat x).magnitude / BinaryParts.hiddenBit : Nat) ≤ k + 1022 := by
  obtain ⟨hless, hle⟩ := MagnitudeBelow.storedExponent_le h hk
  rw [← magnitude_div_hiddenBit] at hless hle
  refine ⟨?_, hle⟩
  change (Double.ofFloat x).magnitude / 2 ^ 52 < 2047 at hless
  change (Double.ofFloat x).magnitude < 2047 * 2 ^ 52
  omega

namespace BinaryParts

theorem bounds_of_ofDouble? {x : Double} {parts : BinaryParts} (h : ofDouble? x = some parts) :
    parts.mantissa < 2 ^ 53 ∧ parts.exponent ≤ max (x.magnitude / hiddenBit : Nat) 1 - 1075 := by
  have hfraction : x.magnitude % hiddenBit < 2 ^ 52 := Nat.mod_lt _ (by decide)
  have hhidden : hiddenBit = 2 ^ 52 := rfl
  unfold ofDouble? at h
  dsimp only at h
  generalize x.magnitude / hiddenBit = stored at *
  split at h
  · cases h
  · split at h
    · cases h
      refine ⟨by dsimp only; omega, ?_⟩
      change (-1074 : Int) ≤ _
      omega
    · cases h
      dsimp only
      omega

/-- Without its fraction and one up is as far as a number is rounded. -/
theorem round_le (parts : BinaryParts) :
    parts.round ≤ parts.mantissa * 2 ^ parts.exponent.toNat + 1 := by
  unfold round
  split
  · exact Nat.le_succ _
  · rename_i hnegative
    have hexponent : parts.exponent.toNat = 0 := by omega
    have htwice : (1 - parts.exponent).toNat = (-parts.exponent).toNat + 1 := by omega
    rw [hexponent, htwice]
    generalize (-parts.exponent).toNat = n
    change (2 * parts.mantissa + 2 ^ n) / 2 ^ (n + 1) ≤ parts.mantissa * 1 + 1
    refine Nat.div_le_of_le_mul ?_
    calc
      2 * parts.mantissa + 2 ^ n ≤ 2 ^ n * (2 * parts.mantissa) + 2 ^ n * 2 :=
        Nat.add_le_add (Nat.le_mul_of_pos_left _ (Nat.two_pow_pos n))
          (Nat.le_mul_of_pos_right _ Nat.two_pos)
      _ = 2 ^ (n + 1) * (parts.mantissa * 1 + 1) := by
        rw [← Nat.mul_add, Nat.pow_succ, Nat.mul_assoc, Nat.mul_one, Nat.mul_add 2, Nat.mul_one]

end BinaryParts

/-- The integer that a float is rounded to needs no more bits than its bound allows. -/
theorem FloatBelow.log2_round_le {k : Int} {x : Float} {parts : BinaryParts}
    (h : FloatBelow k x) (hk : 53 ≤ k)
    (hparts : BinaryParts.ofDouble? (Double.ofFloat x) = some parts) :
    parts.round.log2 ≤ k := by
  obtain ⟨hmantissa, hexponent⟩ := BinaryParts.bounds_of_ofDouble? hparts
  obtain ⟨-, hstored⟩ := h.magnitude_lt (by omega)
  have hsum := Nat.le_trans (log2_mono parts.round_le) (log2_add_le _ 1)
  have hshift := log2_shiftLeft_le parts.mantissa parts.exponent.toNat
  have hlog := log2_lt_of_lt hmantissa (by decide)
  have hone : Nat.log2 1 = 0 := by decide
  rw [← Nat.shiftLeft_eq] at hsum
  omega

/-- Rounding to an integer. -/
theorem FloatBelow.roundFloat {k : Int} {x : Float} (h : FloatBelow k x) (hk : 53 ≤ k)
    (hk' : k ≤ 968) : FloatBelow (k + 4) (roundFloat x) := by
  unfold QueryFormula.roundFloat
  split
  · rename_i parts hparts
    have hround := h.log2_round_le hk hparts
    have hinteger : FloatBelow (k + 4) (Float.ofNat parts.round) :=
      floatBelow_ofNat (by omega) (by omega)
    split
    · exact hinteger.neg (by omega) (by omega)
    · exact hinteger
  · exact h.mono (by omega)

/-! ### Decimals -/

namespace Decimal

/-- The powers of ten that a decimal has places for. -/
theorem floatPower_bounds : ∀ scale ≤ 28,
    AtLeastOne (Float.ofNat (Nat.pow 10 scale)).toModel.unpack ∧
    AtLeastOne (floatPower 10 1 scale).toModel.unpack ∧
    MagnitudeBelow 94 (floatPower 10 1 scale).toModel.unpack := by
  decide +kernel

theorem floatBelow_ofNat_coefficient {n : Nat} (h : n < coefficientBound) :
    FloatBelow 99 (Float.ofNat n) := by
  have hlog := log2_lt_of_lt h (by decide)
  exact floatBelow_ofNat (by omega) (by decide)

theorem floatBelow_magnitudeFloat (x : Decimal) : FloatBelow 203 x.magnitudeFloat := by
  obtain ⟨hplaces, hone, hunit⟩ := floatPower_bounds x.scale x.scale_le
  have hwhole := floatBelow_ofNat_coefficient
    (Nat.lt_of_le_of_lt (Nat.div_le_self _ (Nat.pow 10 x.scale)) x.coefficient_lt)
  have hrest := floatBelow_ofNat_coefficient
    (Nat.lt_of_le_of_lt (Nat.mod_le _ (Nat.pow 10 x.scale)) x.coefficient_lt)
  have hfraction := hrest.div hplaces (by decide) (by decide)
  unfold magnitudeFloat
  dsimp only
  split
  · exact hwhole.mono (by decide)
  · have hsum := hwhole.add hfraction (by decide) (by decide)
    have hscaled := hsum.mul hunit (by decide) (by decide)
    have hrounded := hscaled.roundFloat (by decide) (by decide)
    exact (hrounded.div hone (by decide) (by decide)).mono (by decide)

/-- **A decimal is finite as a double.** -/
theorem isFinite_toDouble (x : Decimal) : x.toDouble.isFinite = true := by
  have hfinite := (x.floatBelow_magnitudeFloat.magnitude_lt (by decide)).1
  refine decide_eq_true ?_
  unfold toDouble
  dsimp only
  split
  · rw [Double.magnitude_negate]
    exact hfinite
  · exact hfinite

end Decimal

end QueryFormula
