import QueryFormula.Decimal.Reading
import QueryFormula.Literal
import QueryFormula.Text.Numeric

/-!
# Numerals

A numeral is a run of digits, then a point and a run of digits, then an
exponent; all parts but one may be missing.  `Numeral.split` takes the longest
numeral off a text, in which any script's decimal digits count as digits;
`Numeral.value?` gives it a value if its digits are ASCII: a decimal where one
can hold it, otherwise the nearest double if that is finite.
-/

namespace QueryFormula

/-- An exponent as written: `e` or `E`, perhaps a sign, digits. -/
structure Exponent where
  mark : Char
  sign : Option Char
  digits : List Char
deriving DecidableEq, Repr

/-- A number as written. -/
structure Numeral where
  whole : List Char
  fraction : List Char
  exponent : Option Exponent
deriving DecidableEq, Repr

namespace Exponent

/-- The characters of the exponent. -/
def chars (e : Exponent) : List Char :=
  e.mark :: (e.sign.toList ++ e.digits)

/-- A sign at the front of a text, and what follows it. -/
def splitSign : List Char → Option Char × List Char
  | '+' :: rest => (some '+', rest)
  | '-' :: rest => (some '-', rest)
  | cs => (none, cs)

/-- An exponent at the front of a text, and what follows it. -/
def split : List Char → Option Exponent × List Char
  | [] => (none, [])
  | mark :: rest =>
    if mark = 'e' ∨ mark = 'E' then
      let (sign, tail) := splitSign rest
      match tail.takeWhile isDecimalDigit with
      | [] => (none, mark :: rest)
      | digits => (some ⟨mark, sign, digits⟩, tail.dropWhile isDecimalDigit)
    else (none, mark :: rest)

/-- The power of ten. -/
def value (e : Exponent) : Int :=
  if e.sign = some '-' then -(digitsValue e.digits : Int) else digitsValue e.digits

/-- The point of a decimal, moved by the exponent. -/
def shift? (e : Exponent) (x : Decimal) : Option Decimal :=
  if e.sign = some '-' then x.shiftLeft? (digitsValue e.digits)
  else x.shiftRight? (digitsValue e.digits)

theorem splitSign_append (cs : List Char) : (splitSign cs).1.toList ++ (splitSign cs).2 = cs := by
  unfold splitSign
  split <;> rfl

theorem split_append (cs : List Char) :
    ((split cs).1.map chars).getD [] ++ (split cs).2 = cs := by
  unfold split
  split
  · rfl
  · rename_i mark rest
    split
    · have hsign := splitSign_append rest
      generalize splitSign rest = signed at hsign
      obtain ⟨sign, tail⟩ := signed
      have htail := List.takeWhile_append_dropWhile (p := isDecimalDigit) (l := tail)
      dsimp only
      split
      · rfl
      · rename_i digits _ hdigits
        simp only [Option.map_some, Option.getD_some, chars, List.cons_append, List.append_assoc]
        rw [htail, hsign]
    · rfl

end Exponent

namespace Numeral

/-- A point with digits behind it at the front of a text: the digits, and what
follows them. -/
def splitFraction : List Char → List Char × List Char
  | '.' :: d :: rest =>
    if isDecimalDigit d then
      ((d :: rest).takeWhile isDecimalDigit, (d :: rest).dropWhile isDecimalDigit)
    else ([], '.' :: d :: rest)
  | cs => ([], cs)

/-- The longest numeral at the front of a text, and what follows it. -/
def split (cs : List Char) : Numeral × List Char :=
  let (fraction, rest) := splitFraction (cs.dropWhile isDecimalDigit)
  let (exponent, rest) := Exponent.split rest
  (⟨cs.takeWhile isDecimalDigit, fraction, exponent⟩, rest)

/-- The point and the digits of a fraction; nothing if there are none. -/
def fractionChars (fraction : List Char) : List Char :=
  if fraction = [] then [] else '.' :: fraction

/-- The characters of the numeral. -/
def chars (n : Numeral) : List Char :=
  n.whole ++ fractionChars n.fraction ++ (n.exponent.map Exponent.chars).getD []

/-- All digits are ASCII digits. -/
def isAscii (n : Numeral) : Bool :=
  n.whole.all Char.isDigit && n.fraction.all Char.isDigit &&
    n.exponent.all fun e => e.digits.all Char.isDigit

/-- The decimal that the numeral writes, if there is one. -/
def decimal? (n : Numeral) : Option Decimal := do
  let base ← Decimal.ofDigits? n.whole n.fraction
  match n.exponent with
  | none => some base
  | some e => e.shift? base

/-- The nearest double. -/
def float (n : Numeral) : Double :=
  let power := (n.exponent.map Exponent.value).getD 0 - n.fraction.length
  .ofFloat (Float.ofScientific (digitsValue (n.whole ++ n.fraction)) (power < 0) power.natAbs)

/-- What the numeral is worth. -/
def value? (n : Numeral) : Option Literal :=
  if n.isAscii then
    match n.decimal? with
    | some x => some (.number x)
    | none => if n.float.isFinite then some (.float n.float) else none
  else none

theorem splitFraction_append (cs : List Char) :
    fractionChars (splitFraction cs).1 ++ (splitFraction cs).2 = cs := by
  unfold splitFraction
  split
  · rename_i d rest
    split
    · rename_i hd
      have hsplit := List.takeWhile_append_dropWhile (p := isDecimalDigit) (l := d :: rest)
      simp only [List.takeWhile_cons, hd, if_true, fractionChars] at hsplit ⊢
      simpa using hsplit
    · rfl
  · rfl

/-- Splitting keeps every character. -/
theorem split_append (cs : List Char) : (split cs).1.chars ++ (split cs).2 = cs := by
  have hwhole := List.takeWhile_append_dropWhile (p := isDecimalDigit) (l := cs)
  have hfraction := splitFraction_append (cs.dropWhile isDecimalDigit)
  have hexponent := Exponent.split_append (splitFraction (cs.dropWhile isDecimalDigit)).2
  simp only [split, chars, List.append_assoc, hexponent, hfraction, hwhole]

end Numeral

end QueryFormula
