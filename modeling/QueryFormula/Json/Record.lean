import QueryFormula.Json.Basic

/-!
# Reading records

A record is written as an object, in which unknown names do not count and no
known name is repeated, or as an array of its fields in their order, of which
the last ones may be missing.
-/

namespace QueryFormula.Json

/-- The values of the named fields of a record, `none` for one that is
missing. -/
def record? (names : List String) : Json → Option (List (Option Json))
  | object members =>
    if names.all fun name => members.countP (·.1 == name) ≤ 1 then
      some (names.map fun name => (members.find? (·.1 == name)).map (·.2))
    else none
  | array items =>
    if items.length ≤ names.length then
      some (items.map some ++ List.replicate (names.length - items.length) none)
    else none
  | _ => none

/-- A field that must be there. -/
def required {α : Type} (read : Json → Option α) (value : Option Json) : Option α :=
  value.bind read

/-- A field that may be missing. -/
def optional {α : Type} (read : Json → Option α) (missing : α) : Option Json → Option α
  | some value => read value
  | none => some missing

/-- A value that may be `null`. -/
def nullable {α : Type} (read : Json → Option α) : Json → Option (Option α)
  | null => some none
  | value => (read value).map some

/-- A string. -/
def text? : Json → Option String
  | string text => some text
  | _ => none

/-- A truth value. -/
def boolean? : Json → Option Bool
  | boolean b => some b
  | _ => none

/-- All items of an array. -/
def list? {α : Type} (read : Json → Option α) : Json → Option (List α)
  | array items => items.mapM read
  | _ => none

/-- The number that a sign and digits write; zero has no sign. -/
def integer? : List Char → Option Int
  | '-' :: digits =>
    if digits ≠ [] ∧ digits.all Char.isDigit ∧ Nat.ofDigitChars 10 digits 0 ≠ 0 then
      some (-(Nat.ofDigitChars 10 digits 0 : Int))
    else none
  | digits =>
    if digits ≠ [] ∧ digits.all Char.isDigit then some (Nat.ofDigitChars 10 digits 0) else none

/-- An integer of 64 bits, written without point and exponent. -/
def int64? : Json → Option Int64
  | number text => do
    let n ← integer? text.toList
    if Int64.minValue.toInt ≤ n ∧ n ≤ Int64.maxValue.toInt then some (Int64.ofInt n) else none
  | _ => none

end QueryFormula.Json
