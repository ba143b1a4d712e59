import QueryFormula.Text.Ranges

/-!
# White space

The Unicode property `White_Space`, and the cutting of a text at both ends.
-/

namespace QueryFormula

/-- The characters that separate tokens and carry no meaning of their own. -/
def blanks : CodeRanges :=
  [ (0x09, 0x0D), (0x20, 0x20), (0x85, 0x85), (0xA0, 0xA0), (0x1680, 0x1680), (0x2000, 0x200A),
    (0x2028, 0x2029), (0x202F, 0x202F), (0x205F, 0x205F), (0x3000, 0x3000) ]

/-- White space of any script. -/
def isBlank (c : Char) : Bool :=
  blanks.contains c

/-- The blanks a text begins with, and what follows them. -/
def splitBlank (cs : List Char) : List Char × List Char :=
  (cs.takeWhile isBlank, cs.dropWhile isBlank)

/-- The text without the blanks at its two ends. -/
def trimChars (cs : List Char) : List Char :=
  ((cs.dropWhile isBlank).reverse.dropWhile isBlank).reverse

/-- The text without the blanks at its two ends. -/
def trim (text : String) : String :=
  String.ofList (trimChars text.toList)

/-- Nothing is lost where the blanks are split off. -/
theorem splitBlank_append (cs : List Char) : (splitBlank cs).1 ++ (splitBlank cs).2 = cs :=
  List.takeWhile_append_dropWhile

end QueryFormula
