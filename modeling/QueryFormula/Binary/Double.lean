/-!
# Doubles

A double is kept as its 64 bits: the sign, then the magnitude.  The magnitudes
below `infinity` are finite, those above it stand for no number.  There are many
of the latter, with either sign, and `Double.bits` tells them apart; as numbers
none of them equals anything (`Double.sameValue_self`).
-/

namespace QueryFormula

/-- A floating-point number of 64 bits, or one of the words that stand for no
number. -/
structure Double where
  bits : UInt64
deriving DecidableEq, Repr

namespace Double

/-- The double of a computed number. -/
def ofFloat (x : Float) : Double :=
  ⟨x.toBits⟩

/-- The topmost bit. -/
def signBit : UInt64 :=
  0x8000000000000000

/-- The bits below the sign: the further from zero, the greater. -/
def magnitude (x : Double) : Nat :=
  x.bits.toNat % signBit.toNat

/-- The magnitude of both infinities. -/
def infinity : Nat :=
  0x7FF0000000000000

/-- The sign is a minus. -/
def isNegative (x : Double) : Bool :=
  signBit ≤ x.bits

/-- The double stands for a finite number. -/
def isFinite (x : Double) : Bool :=
  x.magnitude < infinity

/-- The double stands for no number. -/
def isNaN (x : Double) : Bool :=
  infinity < x.magnitude

/-- The double with the other sign, also where it stands for no number. -/
def negate (x : Double) : Double :=
  ⟨x.bits ^^^ signBit⟩

/-- The two are equal as numbers: both zeros are one number. -/
def sameValue (x y : Double) : Bool :=
  !x.isNaN && !y.isNaN && (x == y || x.magnitude == 0 && y.magnitude == 0)

/-- The sign is no part of the magnitude. -/
theorem magnitude_negate (x : Double) : x.negate.magnitude = x.magnitude := by
  have hsign : signBit.toNat = 2 ^ 63 := rfl
  rw [magnitude, magnitude, negate, UInt64.toNat_xor, hsign, Nat.xor_mod_two_pow, Nat.mod_self,
    Nat.xor_zero]

theorem sameValue_self (x : Double) : x.sameValue x = !x.isNaN := by
  simp [sameValue]

end Double

end QueryFormula
