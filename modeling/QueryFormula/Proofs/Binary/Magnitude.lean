import Mathlib.Algebra.Group.Int.Defs
import Mathlib.Algebra.Group.Nat.Defs

/-!
# How large computed numbers are

The core library computes with doubles in unpacked form: a mantissa and an exponent, without a
limit to either.  Here `MagnitudeBelow k` says of such a number that it is finite and lies
below `2 ^ k`.

Rounding to 53 bits at most doubles a number (`magnitudeBelow_roundWithAccuracy`); each
operation has its bound from that, and packing a number below `2 ^ 972` into 64 bits loses none
of it (`MagnitudeBelow.unpack_pack`).
-/

namespace QueryFormula

open Float.Model Float.Model.UnpackedFloat

/-! ### Binary logarithms -/

theorem log2_lt_of_lt {n k : Nat} (h : n < 2 ^ k) (hk : 0 < k) : n.log2 < k := by
  by_cases hn : n = 0
  · rw [hn, Nat.log2_zero]
    exact hk
  · exact (Nat.log2_lt hn).mpr h

theorem log2_mono {m n : Nat} (h : m ≤ n) : m.log2 ≤ n.log2 := by
  have hn : n < 2 ^ (n.log2 + 1) := Nat.lt_log2_self
  exact Nat.le_of_lt_succ (log2_lt_of_lt (Nat.lt_of_le_of_lt h hn) (Nat.succ_pos _))

theorem log2_add_le (m n : Nat) : (m + n).log2 ≤ max m.log2 n.log2 + 1 := by
  have hm : m < 2 ^ (max m.log2 n.log2 + 1) :=
    Nat.lt_of_lt_of_le Nat.lt_log2_self (Nat.pow_le_pow_right Nat.two_pos (by omega))
  have hn : n < 2 ^ (max m.log2 n.log2 + 1) :=
    Nat.lt_of_lt_of_le Nat.lt_log2_self (Nat.pow_le_pow_right Nat.two_pos (by omega))
  refine Nat.le_of_lt_succ (log2_lt_of_lt ?_ (Nat.succ_pos _))
  rw [Nat.pow_succ]
  omega

theorem log2_mul_le (m n : Nat) : (m * n).log2 ≤ m.log2 + n.log2 + 1 := by
  have hproduct : m * n < 2 ^ (m.log2 + 1) * 2 ^ (n.log2 + 1) :=
    Nat.mul_lt_mul'' Nat.lt_log2_self Nat.lt_log2_self
  rw [← Nat.pow_add] at hproduct
  have hlog := log2_lt_of_lt hproduct (by omega)
  omega

theorem log2_shiftLeft_le (m n : Nat) : (m <<< n).log2 ≤ m.log2 + n := by
  have hshifted : m <<< n < 2 ^ (m.log2 + 1) * 2 ^ n := by
    rw [Nat.shiftLeft_eq]
    exact Nat.mul_lt_mul_of_pos_right Nat.lt_log2_self (Nat.two_pow_pos n)
  rw [← Nat.pow_add] at hshifted
  have hlog := log2_lt_of_lt hshifted (by omega)
  omega

theorem log2_div_add_le {m n : Nat} (h : m / n ≠ 0) : (m / n).log2 + n.log2 ≤ m.log2 := by
  have hn : n ≠ 0 := fun hzero => h (by rw [hzero, Nat.div_zero])
  have hm : m ≠ 0 := fun hzero => h (by rw [hzero, Nat.zero_div])
  rw [Nat.le_log2 hm, Nat.pow_add]
  exact Nat.le_trans (Nat.mul_le_mul (Nat.log2_self_le h) (Nat.log2_self_le hn))
    (Nat.div_mul_le_self m n)

/-! ### Bounds -/

/-- A finite number with a magnitude below `2 ^ k`. -/
inductive MagnitudeBelow (k : Int) : UnpackedFloat → Prop
  | zero (s : Sign) : MagnitudeBelow k (.zero s)
  | finite {s : Sign} {m : Nat} {e : Int} {hm : 0 < m} (h : totalExponent m e ≤ k) :
      MagnitudeBelow k (.finite s m e hm)

/-- A finite number with a magnitude of at least one. -/
inductive AtLeastOne : UnpackedFloat → Prop
  | finite {s : Sign} {m : Nat} {e : Int} {hm : 0 < m} (h : 1 ≤ totalExponent m e) :
      AtLeastOne (.finite s m e hm)

section Decidable

variable {k : Int} {s : Sign} {m : Nat} {e : Int} {hm : 0 < m}

theorem magnitudeBelow_finite_iff :
    MagnitudeBelow k (.finite s m e hm) ↔ totalExponent m e ≤ k := by
  refine ⟨fun h => ?_, .finite⟩
  cases h with
  | finite h => exact h

theorem atLeastOne_finite_iff : AtLeastOne (.finite s m e hm) ↔ 1 ≤ totalExponent m e := by
  refine ⟨fun h => ?_, .finite⟩
  cases h with
  | finite h => exact h

end Decidable

instance (k : Int) : DecidablePred (MagnitudeBelow k)
  | .zero s => isTrue (.zero s)
  | .finite _ _ _ _ => decidable_of_iff _ magnitudeBelow_finite_iff.symm
  | .infinity _ => isFalse nofun
  | .notANumber => isFalse nofun

instance : DecidablePred AtLeastOne
  | .finite _ _ _ _ => decidable_of_iff _ atLeastOne_finite_iff.symm
  | .zero _ => isFalse nofun
  | .infinity _ => isFalse nofun
  | .notANumber => isFalse nofun

theorem MagnitudeBelow.mono {k l : Int} {x : UnpackedFloat} (h : MagnitudeBelow k x)
    (hkl : k ≤ l) : MagnitudeBelow l x := by
  cases h with
  | zero s => exact .zero s
  | finite h => exact .finite (Int.le_trans h hkl)

/-! ### Rounding -/

theorem mantissa_shiftRight (em : ExtendedMantissa) (n : Nat) :
    (em >>> n).mantissa = em.mantissa / 2 ^ n := by
  change (Nat.repeat ExtendedMantissa.shiftRightOne n em).mantissa = _
  induction n with
  | zero => exact (Nat.div_one _).symm
  | succ n ih =>
      rw [Nat.repeat, ExtendedMantissa.shiftRightOne, ih, Nat.div_div_eq_div_mul, Nat.pow_succ]

theorem roundedMantissa_le (em : ExtendedMantissa) : em.roundedMantissa ≤ em.mantissa + 1 := by
  rw [ExtendedMantissa.roundedMantissa]
  cases em.accuracy with
  | exact => exact Nat.le_succ _
  | inexact half => cases half <;> simp only [Accuracy.roundToNearestEven] <;> omega

theorem mantissa_ofMantissaAndAccuracy (m : Nat) (accuracy : Accuracy) :
    (ExtendedMantissa.ofMantissaAndAccuracy m accuracy).mantissa = m := by
  unfold ExtendedMantissa.ofMantissaAndAccuracy
  split <;> rfl

theorem mantissa_cut (m n : Nat) (accuracy : Accuracy) :
    (ExtendedMantissa.ofMantissaAndAccuracy m accuracy >>> n).mantissa = m / 2 ^ n := by
  rw [mantissa_shiftRight, mantissa_ofMantissaAndAccuracy]

theorem targetExponent_eq (total : Int) :
    Format.binary64.targetExponent total = max (total - 53) (-1074) := rfl

/-- By how much a mantissa is cut for its 53 bits, or for the least exponent. -/
def cutWidth (m : Nat) (e : Int) : Nat :=
  (max (totalExponent m e - 53) (-1074) - e).toNat

theorem shiftToTargetExponent_eq (m : Nat) (e : Int) (accuracy : Accuracy) :
    shiftToTargetExponent .binary64 m e accuracy =
      (ExtendedMantissa.ofMantissaAndAccuracy m accuracy >>> cutWidth m e, e + cutWidth m e) :=
  rfl

/-- What is left of a mantissa is not above it. -/
theorem totalExponent_cut_le {m n : Nat} {e : Int} (h : m / 2 ^ n ≠ 0) :
    totalExponent (m / 2 ^ n) (e + n) ≤ totalExponent m e := by
  have hlog := log2_div_add_le h
  rw [Nat.log2_two_pow] at hlog
  unfold totalExponent
  omega

/-- What a mantissa is rounded to is twice the number at most. -/
theorem totalExponent_rounded_le {m n : Nat} {e k : Int} (h : totalExponent m e ≤ k)
    (hk : -1074 ≤ k) (hn : n ≤ m / 2 ^ cutWidth m e + 1) :
    totalExponent n (e + cutWidth m e) ≤ k + 1 := by
  have hlog := log2_mono hn
  have hone : Nat.log2 1 = 0 := by decide
  by_cases hzero : m / 2 ^ cutWidth m e = 0
  · -- nothing is left but what rounding adds, and that is a unit of the exponent
    have hexponent : e + cutWidth m e ≤ k := by
      unfold cutWidth totalExponent at *
      omega
    rw [hzero, Nat.zero_add, hone] at hlog
    unfold totalExponent
    omega
  · have hsum := log2_add_le (m / 2 ^ cutWidth m e) 1
    have htotal := totalExponent_cut_le (e := e) hzero
    unfold totalExponent at *
    omega

/-- The mantissa is cut, rounded up at most by one, and cut again. -/
theorem magnitudeBelow_roundWithAccuracy {s : Sign} {m : Nat} {e k : Int} {accuracy : Accuracy}
    (h : totalExponent m e ≤ k) (hk : -1074 ≤ k) :
    MagnitudeBelow (k + 1) (roundWithAccuracy .binary64 s m e accuracy) := by
  have hround := roundedMantissa_le
    (ExtendedMantissa.ofMantissaAndAccuracy m accuracy >>> cutWidth m e)
  rw [mantissa_cut] at hround
  rw [roundWithAccuracy, shiftToTargetExponent_eq]
  dsimp only
  rw [shiftToTargetExponent_eq]
  dsimp only
  generalize ExtendedMantissa.roundedMantissa _ = n at hround ⊢
  by_cases hany : n / 2 ^ cutWidth n (e + cutWidth m e) = 0
  · rw [dif_pos (by rw [mantissa_cut, hany])]
    exact .zero s
  · rw [dif_neg (by rwa [mantissa_cut])]
    refine .finite ?_
    rw [mantissa_cut]
    exact Int.le_trans (totalExponent_cut_le hany) (totalExponent_rounded_le h hk hround)

theorem magnitudeBelow_round {s : Sign} {m : Nat} {e k : Int} (h : totalExponent m e ≤ k)
    (hk : -1074 ≤ k) : MagnitudeBelow (k + 1) (round .binary64 s m e) := by
  refine magnitudeBelow_roundWithAccuracy ?_ hk
  generalize (e - Format.binary64.targetExponent (totalExponent m e)).toNat = n
  have hlog := log2_shiftLeft_le m n
  unfold totalExponent at *
  omega

theorem magnitudeBelow_normalize {n e k : Int} {zeroSign : Sign}
    (h : totalExponent n.natAbs e ≤ k) (hk : -1074 ≤ k) :
    MagnitudeBelow (k + 1) (UnpackedFloat.normalize .binary64 n e zeroSign) := by
  unfold UnpackedFloat.normalize
  split
  · rename_i hless
    have hless := Int.compare_eq_lt.mp hless
    have hneg : (-n).toNat = n.natAbs := by omega
    exact magnitudeBelow_round (hneg ▸ h) hk
  · exact .zero zeroSign
  · rename_i hgreater
    have hgreater := Int.compare_eq_gt.mp hgreater
    have hpos : n.toNat = n.natAbs := by omega
    exact magnitudeBelow_round (hpos ▸ h) hk

/-! ### Operations -/

section Operations

variable {k l : Int} {x y : UnpackedFloat}

theorem MagnitudeBelow.neg (h : MagnitudeBelow k x) : MagnitudeBelow k x.neg := by
  cases h with
  | zero s => exact .zero _
  | finite h => exact .finite h

theorem MagnitudeBelow.mul (hx : MagnitudeBelow k x) (hy : MagnitudeBelow l y)
    (hkl : -1074 ≤ k + l) : MagnitudeBelow (k + l + 1) (mul .binary64 x y) := by
  cases hx with
  | zero s => cases hy with
      | zero t => exact .zero _
      | finite hy => exact .zero _
  | @finite s m e hm hx => cases hy with
      | zero t => exact .zero _
      | @finite t n f hn hy =>
          refine magnitudeBelow_roundWithAccuracy ?_ hkl
          have hlog := log2_mul_le m n
          unfold totalExponent at *
          omega

theorem natAbs_apply_add_apply_le (s t : Sign) (m n : Nat) :
    (s.apply m + t.apply n).natAbs ≤ m + n := by
  cases s <;> cases t <;> simp only [Sign.apply] <;> omega

theorem MagnitudeBelow.add (hx : MagnitudeBelow k x) (hy : MagnitudeBelow l y)
    (hkl : -1075 ≤ max k l) : MagnitudeBelow (max k l + 2) (add .binary64 x y) := by
  cases hx with
  | zero s => cases hy with
      | zero t =>
          change MagnitudeBelow _ (if (s == t) = true then .zero s else .zero .positive)
          split <;> exact .zero _
      | finite hy => exact .finite (by omega)
  | @finite s m e hm hx => cases hy with
      | zero t => exact .finite (by omega)
      | @finite t n f hn hy =>
          refine (magnitudeBelow_normalize (k := max k l + 1) ?_ (by omega)).mono (by omega)
          have habs := log2_mono (natAbs_apply_add_apply_le s t
            (m <<< (e - min e f).toNat) (n <<< (f - min e f).toNat))
          have hsum := log2_add_le (m <<< (e - min e f).toNat) (n <<< (f - min e f).toNat)
          have hm := log2_shiftLeft_le m (e - min e f).toNat
          have hn := log2_shiftLeft_le n (f - min e f).toNat
          unfold totalExponent at *
          omega

theorem MagnitudeBelow.div (hx : MagnitudeBelow k x) (hy : AtLeastOne y) (hk : -1073 ≤ k) :
    MagnitudeBelow (k + 1) (div .binary64 x y) := by
  cases hx with
  | zero s => cases hy with
      | finite hy => exact .zero _
  | @finite s m e hm hx => cases hy with
      | @finite t n f hn hy =>
          refine magnitudeBelow_roundWithAccuracy ?_ (by omega)
          have htarget := targetExponent_eq (totalExponent m e - totalExponent n f)
          generalize Format.binary64.targetExponent _ = target at htarget ⊢
          generalize hshift : (e - f - min (e - f) target).toNat = i
          have hlog := log2_shiftLeft_le m i
          unfold totalExponent at *
          by_cases hzero : m <<< i / n = 0
          · rw [hzero, Nat.log2_zero]
            omega
          · have hquotient := log2_div_add_le hzero
            omega

end Operations

/-! ### Packed numbers -/

/-- The exponent that is stored in a packed number. -/
def storedExponent (b : BitVec 64) : Nat :=
  (@unpackExponent .binary64 b).toNat

theorem storedExponent_eq (b : BitVec 64) : storedExponent b = b.toNat / 2 ^ 52 % 2 ^ 11 := by
  unfold storedExponent unpackExponent
  rw [BitVec.toNat_cast, BitVec.extractLsb_toNat, Nat.shiftRight_eq_div_pow]
  rfl

theorem storedExponent_packComponents (s : Sign) (stored : BitVec 11) (m : BitVec 52) :
    storedExponent (packComponents .binary64 s stored m) = stored.toNat :=
  congrArg BitVec.toNat unpackExponent_packComponents

/-- A mantissa with its hidden bit in front. -/
theorem log2_hidden_append (m : BitVec 52) : (1#1 ++ m).toNat.log2 = 52 := by
  have hm := m.isLt
  have hvalue : (1#1 ++ m).toNat = 2 ^ 52 + m.toNat := by
    rw [BitVec.toNat_append, ← Nat.shiftLeft_add_eq_or_of_lt hm]
    rfl
  rw [hvalue, Nat.log2_eq_iff (by omega)]
  omega

/-! The greatest stored exponent stands for no finite number, zero for the numbers below the
normal ones, and any other tells the magnitude. -/

section Unpack

variable {k : Int} {b : BitVec 64}

theorem not_magnitudeBelow_unpack (h : storedExponent b = 2047) :
    ¬MagnitudeBelow k (UnpackedFloat.unpack .binary64 b) := by
  have htop : @unpackExponent .binary64 b = -1#11 := BitVec.eq_of_toNat_eq h
  unfold UnpackedFloat.unpack
  rw [if_pos htop]
  intro hbelow
  by_cases hmantissa : @unpackMantissa .binary64 b = 0#52
  · rw [if_pos hmantissa] at hbelow
    cases hbelow
  · rw [if_neg hmantissa] at hbelow
    cases hbelow

theorem magnitudeBelow_unpack_of_zero (h : storedExponent b = 0) :
    MagnitudeBelow (-1022) (UnpackedFloat.unpack .binary64 b) := by
  have hzero : @unpackExponent .binary64 b = 0#11 := BitVec.eq_of_toNat_eq h
  have htop : @unpackExponent .binary64 b ≠ -1#11 := by
    rw [hzero]
    decide
  have hbias : (Format.binary64.exponentBias : Int) = 1023 := rfl
  unfold UnpackedFloat.unpack
  rw [if_neg htop, if_pos hzero]
  by_cases hmantissa : @unpackMantissa .binary64 b = 0#52
  · rw [dif_pos hmantissa]
    exact .zero _
  · rw [dif_neg hmantissa, magnitudeBelow_finite_iff]
    change totalExponent _ ((storedExponent b : Int) - (_ + 52) + 1) ≤ _
    have hlog : (@unpackMantissa .binary64 b).toNat.log2 < 52 :=
      log2_lt_of_lt (@unpackMantissa .binary64 b).isLt (by decide)
    unfold totalExponent
    omega

theorem magnitudeBelow_unpack_iff (hzero : storedExponent b ≠ 0) (htop : storedExponent b ≠ 2047) :
    MagnitudeBelow k (UnpackedFloat.unpack .binary64 b) ↔ (storedExponent b : Int) ≤ k + 1022 := by
  have hzero : @unpackExponent .binary64 b ≠ 0#11 := fun h => hzero (congrArg BitVec.toNat h)
  have htop : @unpackExponent .binary64 b ≠ -1#11 := fun h => htop (congrArg BitVec.toNat h)
  have hbias : (Format.binary64.exponentBias : Int) = 1023 := rfl
  unfold UnpackedFloat.unpack
  rw [if_neg htop, if_neg hzero, magnitudeBelow_finite_iff]
  change totalExponent _ ((storedExponent b : Int) - (_ + 52)) ≤ _ ↔ _
  have hlog := log2_hidden_append (@unpackMantissa .binary64 b)
  unfold totalExponent
  omega

theorem MagnitudeBelow.storedExponent_le (h : MagnitudeBelow k (UnpackedFloat.unpack .binary64 b))
    (hk : -1022 ≤ k) : storedExponent b < 2047 ∧ (storedExponent b : Int) ≤ k + 1022 := by
  have hexponent : storedExponent b < 2 ^ 11 := (@unpackExponent .binary64 b).isLt
  have htop : storedExponent b ≠ 2047 := fun htop => not_magnitudeBelow_unpack htop h
  by_cases hzero : storedExponent b = 0
  · omega
  · exact ⟨by omega, (magnitudeBelow_unpack_iff hzero htop).mp h⟩

theorem magnitudeBelow_of_storedExponent_le (h : storedExponent b < 2047)
    (hk : -1022 ≤ k) (hle : (storedExponent b : Int) ≤ k + 1022) :
    MagnitudeBelow k (UnpackedFloat.unpack .binary64 b) := by
  by_cases hzero : storedExponent b = 0
  · exact (magnitudeBelow_unpack_of_zero hzero).mono hk
  · exact (magnitudeBelow_unpack_iff hzero (by omega)).mpr hle

end Unpack

variable {k : Int}

theorem MagnitudeBelow.storedExponent_pack_le {x : UnpackedFloat} (h : MagnitudeBelow k x)
    (hk : -1022 ≤ k) (hk' : k ≤ 972) :
    (storedExponent (UnpackedFloat.pack .binary64 x) : Int) ≤ k + 1022 := by
  cases h with
  | zero s =>
      change (storedExponent (packComponents .binary64 s 0 0) : Int) ≤ _
      rw [storedExponent_packComponents]
      change (0 : Int) ≤ _
      omega
  | @finite s m e hm h =>
      have hbias : (Format.binary64.exponentBias : Int) = 1023 := rfl
      unfold totalExponent at h
      unfold UnpackedFloat.pack
      dsimp only
      rw [if_neg (by change ¬2048 ≤ _; omega)]
      split
      · rename_i hnormal
        have hwidth : m.log2 + 1 = 53 := hnormal
        rw [storedExponent_packComponents, BitVec.toNat_ofNat,
          Nat.mod_eq_of_lt (by change _ < 2048; omega)]
        omega
      · rw [storedExponent_packComponents]
        change (0 : Int) ≤ _
        omega

/-- **Packing keeps the bound.** -/
theorem MagnitudeBelow.unpack_pack {x : UnpackedFloat} (h : MagnitudeBelow k x) (hk : -1022 ≤ k)
    (hk' : k ≤ 972) :
    MagnitudeBelow k (UnpackedFloat.unpack .binary64 (UnpackedFloat.pack .binary64 x)) := by
  have hstored := h.storedExponent_pack_le hk hk'
  exact magnitudeBelow_of_storedExponent_le (by omega) hk hstored

end QueryFormula
