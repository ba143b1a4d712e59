import QueryFormula.Binary.Shortest

/-!
# Writing a double

The digits of a double are the shortest that read back; a `FloatLayout` says how
they are set: where positional writing ends, and whether an integral value keeps
a point.
-/

namespace QueryFormula

/-- How the shortest digits of a double are set out. -/
structure FloatLayout where
  /-- The exponents of the first digit that are written positionally. -/
  positional : Int → Bool
  /-- Integral values end in `.0`. -/
  keepsPoint : Bool
  /-- Which of two equally near decimals is written. -/
  tie : Tie

namespace DigitString

/-- The digits around a point, without an exponent. -/
def positional (d : DigitString) (keepsPoint : Bool) : List Char :=
  if d.exponent < 0 then
    '0' :: '.' :: (List.replicate (-d.exponent - 1).toNat '0' ++ d.digits)
  else
    let count := d.exponent.toNat + 1
    let whole := d.digits.take count ++ List.replicate (count - d.digits.length) '0'
    match d.digits.drop count with
    | [] => if keepsPoint then whole ++ ['.', '0'] else whole
    | fraction => whole ++ '.' :: fraction

/-- One digit, the others behind a point, and the exponent with its sign. -/
def scientific (d : DigitString) : List Char :=
  let tail := d.digits.drop 1
  d.digits.take 1 ++ (if tail = [] then [] else '.' :: tail) ++
    'e' :: (if d.exponent < 0 then '-' else '+') :: Nat.toDigits 10 d.exponent.natAbs

end DigitString

namespace FloatLayout

/-- The text of a finite double; `none` for an infinity and for no number. -/
def write? (layout : FloatLayout) (x : Double) : Option (List Char) :=
  (BinaryParts.ofDouble? x).map fun parts =>
    let digits := parts.shortest layout.tie
    let magnitude :=
      if layout.positional digits.exponent then digits.positional layout.keepsPoint
      else digits.scientific
    if parts.negative then '-' :: magnitude else magnitude

end FloatLayout

end QueryFormula
